import IotcRa8p1.Ice.StunWalk

/-!
# Which STUN messages the agent accepts

A message is a header (`headerBytes`) and a body; `deserializerInit` looks at the header, `deserializeStunPacket` at
the body.  Together they accept exactly the messages of `deserializeStunPacket_iff`.  The password is asked for only
where the message has an integrity.
-/

namespace IotcRa8p1.Ice

open ByteMem BitField Tlv Stun

/-- The header of a message whose body has `n` bytes. -/
def headerBytes (header : StunHeader) (n : ℕ) : List UInt8 :=
  beBytes 2 header.messageType.toNat ++ beBytes 2 n ++ beBytes 4 magicCookie.toNat ++ header.transactionId.val

theorem headerBytes_length (header : StunHeader) (n : ℕ) : (headerBytes header n).length = 20 := by
  simp only [headerBytes, List.length_append, beBytes_length, header.transactionId.property]

theorem take_beBytes {bs : List UInt8} {w : ℕ} (h : w ≤ bs.length) : beBytes w (beNat (bs.take w)) = bs.take w := by
  have hl : (bs.take w).length = w := by rw [List.length_take, Nat.min_eq_left h]
  have hb := beBytes_beNat (bs.take w)
  rwa [hl] at hb

theorem beNat_take_lt {bs : List UInt8} {w : ℕ} (h : w ≤ bs.length) : beNat (bs.take w) < 256 ^ w := by
  have hb := beNat_lt (bs.take w)
  rwa [List.length_take, Nat.min_eq_left h] at hb

/-- The fields of a header in front of anything. -/
theorem headerBytes_fields (header : StunHeader) (n : ℕ) (body : List UInt8) :
    (headerBytes header n ++ body).take 2 = beBytes 2 header.messageType.toNat ∧
    ((headerBytes header n ++ body).drop 2).take 2 = beBytes 2 n ∧
    ((headerBytes header n ++ body).drop 4).take 4 = beBytes 4 magicCookie.toNat ∧
    ((headerBytes header n ++ body).drop 8).take 12 = header.transactionId.val ∧
    (headerBytes header n ++ body).drop 20 = body := by
  have h2 : ∀ k, (beBytes 2 k).length = 2 := fun k => beBytes_length 2 k
  have h4 : ∀ k, (beBytes 4 k).length = 4 := fun k => beBytes_length 4 k
  have htid := header.transactionId.property
  have hdrop2 : (headerBytes header n ++ body).drop 2 =
      beBytes 2 n ++ (beBytes 4 magicCookie.toNat ++ (header.transactionId.val ++ body)) := by
    simp only [headerBytes, List.append_assoc]
    exact List.drop_left' (h2 _)
  have hdrop4 : (headerBytes header n ++ body).drop 4 =
      beBytes 4 magicCookie.toNat ++ (header.transactionId.val ++ body) := by
    rw [show 4 = 2 + 2 from rfl, ← List.drop_drop, hdrop2]
    exact List.drop_left' (h2 _)
  have hdrop8 : (headerBytes header n ++ body).drop 8 = header.transactionId.val ++ body := by
    rw [show 8 = 4 + 4 from rfl, ← List.drop_drop, hdrop4]
    exact List.drop_left' (h4 _)
  refine ⟨?_, ?_, ?_, ?_, List.drop_left' (headerBytes_length header n)⟩
  · simp only [headerBytes, List.append_assoc]
    exact List.take_left' (h2 _)
  · rw [hdrop2, List.take_left' (h2 _)]
  · rw [hdrop4, List.take_left' (h4 _)]
  · rw [hdrop8, List.take_left' htid]

theorem header_eq {messageType : UInt16} {transactionId : TransactionId} {header : StunHeader}
    (htype : messageType = header.messageType) (htid : transactionId.val = header.transactionId.val) :
    ⟨messageType, transactionId⟩ = header := by
  rw [htype, Subtype.ext htid]

/-- `StunDeserializer_Init` accepts the messages that have a header with their own length in it. -/
theorem deserializerInit_iff (message : List UInt8) (ctx : StunContext) (header : StunHeader) :
    deserializerInit message = .ok (ctx, header) ↔
      ∃ body, body.length < 65536 ∧ message = headerBytes header body.length ++ body ∧
        ctx = ⟨message, headerLength, false, false⟩ := by
  constructor
  · intro h
    unfold deserializerInit at h
    split_ifs at h with hshort hcookie hlength
    obtain ⟨hctx, hheader⟩ := Prod.mk.inj (Except.ok.inj h)
    have h20 : 20 ≤ message.length := Nat.not_lt.mp hshort
    have hcookie' := not_not.mp hcookie
    have hlength' := not_not.mp hlength
    have hl2 : 2 ≤ (message.drop 2).length := by rw [List.length_drop]; omega
    have hl4 : 4 ≤ (message.drop 4).length := by rw [List.length_drop]; omega
    have hbody : (message.drop 20).length = beNat ((message.drop 2).take 2) := by
      rw [List.length_drop]
      dsimp only [headerLength] at hlength'
      omega
    have htype : beBytes 2 (tagOf message).toNat = message.take 2 := by
      have hlt : beNat (message.take 2) < 2 ^ 16 := beNat_take_lt (by omega)
      rw [tagOf, UInt16.toNat_ofNat', Nat.mod_eq_of_lt hlt, take_beBytes (by omega)]
    refine ⟨message.drop 20, ?_, ?_, hctx.symm⟩
    · rw [hbody]
      exact beNat_take_lt hl2
    · rw [← hheader, headerBytes, hbody, ← hcookie', take_beBytes hl2, take_beBytes hl4]
      dsimp only
      rw [htype]
      have hdrop2 : message.take 2 ++ message.drop 2 = message := List.take_append_drop 2 message
      have hdrop4 : (message.drop 2).take 2 ++ message.drop 4 = message.drop 2 := by
        have h := List.take_append_drop 2 (message.drop 2)
        rwa [List.drop_drop] at h
      have hdrop8 : (message.drop 4).take 4 ++ message.drop 8 = message.drop 4 := by
        have h := List.take_append_drop 4 (message.drop 4)
        rwa [List.drop_drop] at h
      have hdrop20 : (message.drop 8).take 12 ++ message.drop 20 = message.drop 8 := by
        have h := List.take_append_drop 12 (message.drop 8)
        rwa [List.drop_drop] at h
      simp only [List.append_assoc]
      rw [hdrop20, hdrop8, hdrop4, hdrop2]
  · rintro ⟨body, hlt, rfl, rfl⟩
    obtain ⟨htype, hlength, hcookie, htid, -⟩ := headerBytes_fields header body.length body
    have hlen : (headerBytes header body.length ++ body).length = 20 + body.length := by
      rw [List.length_append, headerBytes_length]
    unfold deserializerInit
    rw [dif_neg (by rw [hlen]; dsimp only [headerLength]; omega), if_neg, if_neg]
    · have htag : tagOf (headerBytes header body.length ++ body) = header.messageType := by
        rw [tagOf, htype, beNat_beBytes_of_lt 2 _ header.messageType.toNat_lt]
        exact UInt16.ofNat_toNat
      exact congrArg (fun h => Except.ok (_, h)) (header_eq htag htid)
    · rw [hlength, beNat_beBytes_of_lt 2 _ hlt, hlen]
      dsimp only [headerLength]
      omega
    · rw [hcookie, beNat_beBytes_of_lt 4 _ magicCookie.toNat_lt]
      exact not_not.mpr rfl

theorem rest_start {message body : List UInt8} {header : StunHeader} {n : ℕ}
    (h : message = headerBytes header n ++ body) : rest ⟨message, headerLength, false, false⟩ = body := by
  rw [h]
  exact (headerBytes_fields header n body).2.2.2.2

theorem message_length {message body : List UInt8} {header : StunHeader} {n : ℕ}
    (h : message = headerBytes header n ++ body) : message.length = 20 + body.length := by
  rw [h, List.length_append, headerBytes_length]

theorem inside_start {message : List UInt8} (h : 20 ≤ message.length) :
    Inside ⟨message, headerLength, false, false⟩ :=
  ⟨le_refl _, h⟩

/-- **Which messages are accepted.**  A message with this header is accepted, with this information, exactly when its
body is a sequence of attributes in order and of valid lengths, each padded to a word, that are all genuine; the
information is what they give, one over the other. -/
theorem deserializeStunPacket_iff (crypto : IceCryptoFunctions) (password message : List UInt8) (header : StunHeader)
    (info : IceStunDeserializedPacketInfo) :
    (∃ ctx, deserializerInit message = .ok (ctx, header) ∧
        deserializeStunPacket crypto ctx password = some (.ok info)) ↔
      ∃ body as, body.length < 65536 ∧ message = headerBytes header body.length ++ body ∧
        Reads next (false, false) body as ∧ AllGenuine crypto password message headerLength as ∧
        info = as.foldl (receive message) {} := by
  constructor
  · rintro ⟨ctx, hinit, hok⟩
    obtain ⟨body, hlt, hmessage, rfl⟩ := (deserializerInit_iff _ _ _).mp hinit
    have hlen := message_length hmessage
    have hrest := rest_start hmessage
    have hin : Inside ⟨message, headerLength, false, false⟩ := inside_start (by omega)
    rcases deserializeLoop_cases crypto password (message.length + 1) {} hin
      (Patched.refl message) (by rw [hrest]; omega) with ⟨as, hreads, hall, hloop⟩ | ⟨as, _, hloop⟩ | ⟨e, hloop⟩
    · have hinfo := Except.ok.inj (Option.some.inj (hok.symm.trans hloop))
      rw [hrest] at hreads
      exact ⟨body, as, hlt, hmessage, hreads, hall, hinfo⟩
    · cases hok.symm.trans hloop
    · cases hok.symm.trans hloop
  · rintro ⟨body, as, hlt, hmessage, hreads, hall, rfl⟩
    have hlen := message_length hmessage
    have hrest := rest_start hmessage
    have hin : Inside ⟨message, headerLength, false, false⟩ := inside_start (by omega)
    refine ⟨_, (deserializerInit_iff _ _ _).mpr ⟨body, hlt, hmessage, rfl⟩, ?_⟩
    exact deserializeLoop_reads crypto password hreads _ _ _ hin hrest rfl (Patched.refl message)
      (show body.length < message.length + 1 by omega) hall

/-! ### Reading outside -/

/-- Attributes of a user name of no bytes, and one of `s` bytes that is not padded. -/
def unpadded (k s : ℕ) : List UInt8 :=
  (List.replicate k (Item.mk typeUsername []).bytes).flatten ++ (Item.mk typeUsername (List.replicate s 0)).bytes

theorem unpadded_length (k s : ℕ) : (unpadded k s).length = 4 * k + 4 + s := by
  induction k with
  | zero => simp [unpadded]
  | succ k ih =>
    have hstep : unpadded (k + 1) s = (Item.mk typeUsername []).bytes ++ unpadded k s := by
      simp only [unpadded, List.replicate_succ, List.flatten_cons, List.append_assoc]
    rw [hstep, List.length_append, ih, bytes_length]
    simp only [List.length_nil]
    omega

theorem unpadded_overruns (k : ℕ) {s : ℕ} (h0 : 0 < s) (h4 : s < 4) (crypto : IceCryptoFunctions)
    (password message : List UInt8) : ∃ as, Overruns next (false, false) (unpadded k s) as ∧
      ∀ i, AllGenuine crypto password message i as := by
  have hplain : ∀ value j, Genuine crypto password message j (Item.mk typeUsername value) := by
    intro value j
    exact genuine_of_plain (by dsimp only; decide) (by dsimp only; decide) (by dsimp only; decide)
  have hnext : ∀ value : List UInt8, value.length < 4 →
      next (false, false) ⟨typeUsername, value⟩ = some (false, false) := by
    intro value hlt
    have hvalid : isAttributeLengthValid typeUsername value.length = true :=
      decide_eq_true (show value.length ≤ 512 by omega)
    rw [next, if_neg (by rintro (h | ⟨h, -⟩) <;> cases h), if_pos hvalid]
    rfl
  induction k with
  | zero =>
    refine ⟨[⟨typeUsername, List.replicate s 0⟩], ?_, fun i => ⟨hplain _ _, trivial⟩⟩
    have hover : Overruns next (false, false) ((Item.mk typeUsername (List.replicate s 0)).bytes ++ []) _ :=
      .here (by rw [List.length_replicate]; omega) (hnext _ (by rw [List.length_replicate]; exact h4))
        (by rw [List.length_replicate, List.length_nil, padLength]; omega)
    rw [List.append_nil] at hover
    simpa only [unpadded, List.replicate_zero, List.flatten_nil, List.nil_append] using hover
  | succ k ih =>
    obtain ⟨as, hover, hall⟩ := ih
    refine ⟨⟨typeUsername, []⟩ :: as, ?_, fun i => ⟨hplain _ _, hall _⟩⟩
    have hitem : Overruns next (false, false) ((Item.mk typeUsername []).bytes ++ [] ++ unpadded k s) _ :=
      .item (by decide) (hnext [] (by decide)) rfl hover
    rw [List.append_nil] at hitem
    simpa only [unpadded, List.replicate_succ, List.flatten_cons, List.append_assoc] using hitem

/-- **Reading inside.**  Whatever a message of `n` bytes holds, the walk over it stays inside, exactly when `n` is a
whole number of words, too short for an attribute with a value, or no length that a header can have. -/
theorem deserializeStunPacket_inside_iff (n : ℕ) :
    (∀ crypto password message ctx header, message.length = n → deserializerInit message = .ok (ctx, header) →
        deserializeStunPacket crypto ctx password ≠ none) ↔
      n < 25 ∨ n % 4 = 0 ∨ 65555 < n := by
  constructor
  · intro hall
    by_contra hn
    have hq : n = 20 + (4 * ((n - 20) / 4 - 1) + 4 + (n - 20) % 4) := by omega
    have hbody := unpadded_length ((n - 20) / 4 - 1) ((n - 20) % 4)
    let header : StunHeader := ⟨1, ⟨List.replicate 12 0, List.length_replicate⟩⟩
    let crypto : IceCryptoFunctions :=
      ⟨fun _ => (.ok, ⟨List.replicate 12 0, List.length_replicate⟩), fun _ => .ok 0, fun _ _ => .ok [],
        fun _ => .ok []⟩
    obtain ⟨message, hmessage⟩ : ∃ message, message = headerBytes header (unpadded ((n - 20) / 4 - 1)
      ((n - 20) % 4)).length ++ unpadded ((n - 20) / 4 - 1) ((n - 20) % 4) := ⟨_, rfl⟩
    have hlen : message.length = n := by
      rw [hmessage, List.length_append, headerBytes_length, hbody]
      omega
    obtain ⟨as, hover, hgenuine⟩ := unpadded_overruns ((n - 20) / 4 - 1) (s := (n - 20) % 4) (by omega) (by omega)
      crypto [] message
    have hrest := rest_start hmessage
    refine hall crypto [] message _ header hlen ((deserializerInit_iff _ _ _).mpr ⟨_, ?_, hmessage, rfl⟩) ?_
    · rw [hbody]
      omega
    · exact deserializeLoop_overruns crypto [] hover _ _ _ (inside_start (by omega)) hrest rfl
        (Patched.refl message) (hgenuine _)
  · intro hn crypto password message ctx header hlen hinit hnone
    obtain ⟨body, hlt, hmessage, rfl⟩ := (deserializerInit_iff _ _ _).mp hinit
    have hbody := message_length hmessage
    have hrest := rest_start hmessage
    rcases deserializeLoop_cases crypto password (message.length + 1) {}
      (inside_start (by omega)) (Patched.refl message) (by rw [hrest]; omega) with
      ⟨as, _, _, hloop⟩ | ⟨as, hover, _⟩ | ⟨e, hloop⟩
    · cases hnone.symm.trans hloop
    · rw [hrest] at hover
      have hmod := hover.length_mod
      omega
    · cases hnone.symm.trans hloop

end IotcRa8p1.Ice
