import IotcRa8p1.Media.Rtp
import Mathlib.Data.List.Basic

/-!
# The format of an RTP packet

`Wire` says which packets there are, and with which padding; `headerBytes` and the payload are their bytes.
`rtpDeSerialize_iff`: reading succeeds exactly on the bytes of a packet, and gives that packet.
-/

namespace IotcRa8p1.Media.Rtp

open ByteMem BitField

/-! ### Fields of a word -/

theorem putField_toNat (v location mask : UInt32) (n : ℕ)
    (hmask : mask.toNat = (2 ^ n - 1) * 2 ^ location.toNat) (hn : location.toNat + n ≤ 32) :
    (putField v location mask).toNat = v.toNat % 2 ^ n * 2 ^ location.toNat := by
  have hlt : location.toNat < 32 ∨ n = 0 := by omega
  rcases hlt with hlt | rfl
  · have hsplit : 2 ^ 32 = 2 ^ location.toNat * 2 ^ (32 - location.toNat) := by
      rw [← Nat.pow_add, Nat.add_sub_cancel' (Nat.le_of_lt hlt)]
    have hdvd : 2 ^ n ∣ 2 ^ (32 - location.toNat) := Nat.pow_dvd_pow 2 (by omega)
    rw [putField, UInt32.toNat_and, UInt32.toNat_shiftLeft, hmask, Nat.mod_eq_of_lt hlt, Nat.shiftLeft_eq,
      and_mask, hsplit, Nat.mod_mul_right_div_self, Nat.mul_div_cancel _ (Nat.two_pow_pos _),
      Nat.mod_mod_of_dvd _ hdvd]
  · rw [putField, UInt32.toNat_and, hmask, Nat.pow_zero, Nat.sub_self, Nat.zero_mul, Nat.and_zero, Nat.mod_one,
      Nat.zero_mul]

theorem getField_toNat (w mask location : UInt32) (n : ℕ)
    (hmask : mask.toNat = (2 ^ n - 1) * 2 ^ location.toNat) (hlt : location.toNat < 32) :
    (getField w mask location).toNat = w.toNat / 2 ^ location.toNat % 2 ^ n := by
  rw [getField, UInt32.toNat_shiftRight, UInt32.toNat_and, hmask, Nat.mod_eq_of_lt hlt, and_mask,
    Nat.shiftRight_eq_div_pow, Nat.mul_div_cancel _ (Nat.two_pow_pos _)]

theorem putFlag_toNat (flag : Bool) (location : UInt32) (hlt : location.toNat < 32) :
    (putFlag flag location).toNat = flag.toNat * 2 ^ location.toNat := by
  cases flag
  · exact (Nat.zero_mul _).symm
  · have hpow : 2 ^ location.toNat < 2 ^ 32 := Nat.pow_lt_pow_right (by decide) hlt
    rw [putFlag, if_pos rfl, UInt32.toNat_shiftLeft, Nat.mod_eq_of_lt hlt, Nat.shiftLeft_eq]
    exact Nat.mod_eq_of_lt (by rw [show (1 : UInt32).toNat = 1 from rfl, Nat.one_mul]; exact hpow)

theorem getFlag (w mask : UInt32) (location : ℕ) (hmask : mask.toNat = 2 ^ location) :
    w &&& mask ≠ 0 ↔ w.toNat / 2 ^ location % 2 = 1 := by
  have hpos : 0 < 2 ^ location := Nat.two_pow_pos _
  have hzero : w &&& mask = 0 ↔ w.toNat / 2 ^ location % 2 * 2 ^ location = 0 := by
    rw [← and_bit, ← hmask, ← UInt32.toNat_and]
    exact UInt32.toNat_inj.symm
  rw [Ne, hzero, Nat.mul_eq_zero]
  omega

theorem flag_toNat (w mask : UInt32) (location : ℕ) (hmask : mask.toNat = 2 ^ location) :
    (decide (w &&& mask ≠ 0)).toNat = w.toNat / 2 ^ location % 2 := by
  have hflag := getFlag w mask location hmask
  rcases Nat.mod_two_eq_zero_or_one (w.toNat / 2 ^ location) with h0 | h1
  · rw [decide_eq_false fun h => by have := hflag.mp h; omega, h0]
    rfl
  · rw [decide_eq_true (hflag.mpr h1), h1]
    rfl

/-- The header's first word as a number. -/
theorem firstWord_toNat (h : RtpHeader) : (firstWord h).toNat =
    2 * 2 ^ 30 + h.padding.toNat * 2 ^ 29 + h.extension.isSome.toNat * 2 ^ 28 +
      h.csrcCount.toNat % 2 ^ 4 * 2 ^ 24 + h.marker.toNat * 2 ^ 23 + h.payloadType.toNat % 2 ^ 7 * 2 ^ 16 +
      h.sequenceNumber.toNat := by
  have hp := h.padding.toNat_lt
  have hx := h.extension.isSome.toNat_lt
  have hm := h.marker.toNat_lt
  have hseq := h.sequenceNumber.toNat_lt
  have hcc : (putField h.csrcCount.toUInt32 24 0x0F000000).toNat = h.csrcCount.toNat % 2 ^ 4 * 2 ^ 24 :=
    putField_toNat _ 24 _ 4 rfl (by decide)
  have hpt : (putField h.payloadType.toUInt32 16 0x007F0000).toNat = h.payloadType.toNat % 2 ^ 7 * 2 ^ 16 :=
    putField_toNat _ 16 _ 7 rfl (by decide)
  have hsn : (putField h.sequenceNumber.toUInt32 0 0x0000FFFF).toNat = h.sequenceNumber.toNat := by
    rw [putField_toNat _ 0 _ 16 rfl (by decide)]
    show h.sequenceNumber.toNat % 2 ^ 16 * 1 = _
    omega
  have hpad : (putFlag h.padding 29).toNat = h.padding.toNat * 2 ^ 29 := putFlag_toNat _ 29 (by decide)
  have hext : (putFlag h.extension.isSome 28).toNat = h.extension.isSome.toNat * 2 ^ 28 :=
    putFlag_toNat _ 28 (by decide)
  have hmark : (putFlag h.marker 23).toNat = h.marker.toNat * 2 ^ 23 := putFlag_toNat _ 23 (by decide)
  simp only [firstWord, UInt32.toNat_or, hcc, hpt, hsn, hpad, hext, hmark,
    show ((2 : UInt32) <<< 30).toNat = 2 * 2 ^ 30 from rfl]
  -- from the version down, each field stands below the ones before it
  simp (disch := omega) only [or_low 30, or_low 29, or_low 28, or_low 24, or_low 23, or_low 16]

theorem extensionHeader_toNat (e : RtpHeaderExtension) :
    (extensionHeader e).toNat = e.extensionProfile.toNat * 2 ^ 16 + e.extensionPayloadLength.toNat := by
  have hprofile := e.extensionProfile.toNat_lt
  have hlength := e.extensionPayloadLength.toNat_lt
  have hp : (putField e.extensionProfile.toUInt32 16 0xFFFF0000).toNat = e.extensionProfile.toNat * 2 ^ 16 := by
    rw [putField_toNat _ 16 _ 16 rfl (by decide)]
    show e.extensionProfile.toNat % 2 ^ 16 * 2 ^ 16 = _
    omega
  have hl : (putField e.extensionPayloadLength.toUInt32 0 0x0000FFFF).toNat =
      e.extensionPayloadLength.toNat := by
    rw [putField_toNat _ 0 _ 16 rfl (by decide)]
    show e.extensionPayloadLength.toNat % 2 ^ 16 * 1 = _
    omega
  rw [extensionHeader, UInt32.toNat_or, hp, hl, or_low 16 (by omega) (by omega)]

/-! ### Words in the bytes -/

@[simp] theorem word_length (w : UInt32) : (word w).length = 4 := beBytes_length 4 _

theorem readUint32_append (a b : List UInt8) (w : UInt32) : readUint32 (a ++ (word w ++ b)) a.length = w := by
  have htake : (word w ++ b).take 4 = word w := by rw [← word_length w, List.take_left]
  rw [readUint32, List.drop_left, htake, word, beNat_beBytes_of_lt 4 _ w.toNat_lt]
  exact UInt32.ofNat_toNat

/-- The bytes read are those of the word. -/
theorem word_readUint32 {bs : List UInt8} {i : ℕ} (h : i + 4 ≤ bs.length) :
    word (readUint32 bs i) = (bs.drop i).take 4 := by
  have hlength : ((bs.drop i).take 4).length = 4 := by
    rw [List.length_take, List.length_drop]
    omega
  have hlt : beNat ((bs.drop i).take 4) < 2 ^ 32 := by
    have h := beNat_lt ((bs.drop i).take 4)
    rwa [hlength] at h
  have hbytes := beBytes_beNat ((bs.drop i).take 4)
  rw [hlength] at hbytes
  rw [word, readUint32, UInt32.toNat_ofNat', Nat.mod_eq_of_lt hlt, hbytes]

theorem take_word {bs : List UInt8} {i : ℕ} (h : i + 4 ≤ bs.length) :
    bs.take i ++ word (readUint32 bs i) = bs.take (i + 4) := by
  rw [word_readUint32 h, List.take_add]

@[simp] theorem words_zero (pWords : List UInt32) : words pWords 0 = [] := rfl

theorem words_succ (pWords : List UInt32) (n : ℕ) :
    words pWords (n + 1) = words pWords n ++ word (pWords.getD n 0) := by
  rw [words, List.range_succ, List.flatMap_append, List.flatMap_singleton]
  rfl

@[simp] theorem words_length (pWords : List UInt32) (n : ℕ) : (words pWords n).length = 4 * n := by
  induction n with
  | zero => rfl
  | succ n ih => rw [words_succ, List.length_append, ih, word_length]; omega

/-- The words read one after the other. -/
def readWords (bs : List UInt8) (i n : ℕ) : List UInt32 := (List.range n).map fun k => readUint32 bs (i + 4 * k)

@[simp] theorem readWords_length (bs : List UInt8) (i n : ℕ) : (readWords bs i n).length = n := by
  rw [readWords, List.length_map, List.length_range]

theorem readWords_getD (bs : List UInt8) (i : ℕ) {n k : ℕ} (h : k < n) :
    (readWords bs i n).getD k 0 = readUint32 bs (i + 4 * k) := by
  rw [readWords, List.getD_eq_getElem?_getD, List.getElem?_map, List.getElem?_range h]
  rfl

theorem take_words {bs : List UInt8} {i n m : ℕ} (h : i + 4 * n ≤ bs.length) (hn : n ≤ m) :
    bs.take i ++ words (readWords bs i m) n = bs.take (i + 4 * n) := by
  induction n with
  | zero => exact List.append_nil _
  | succ n ih =>
    rw [words_succ, ← List.append_assoc, ih (by omega) (by omega), readWords_getD bs i (by omega),
      take_word (by omega)]
    rfl

theorem words_split {pWords : List UInt32} {n k : ℕ} (hk : k < n) (hk' : k < pWords.length) :
    ∃ c, words pWords n = words pWords k ++ (word pWords[k] ++ c) := by
  induction n with
  | zero => exact absurd hk (Nat.not_lt_zero k)
  | succ n ih =>
    rcases Nat.lt_succ_iff_lt_or_eq.mp hk with hlt | rfl
    · obtain ⟨c, hc⟩ := ih hlt
      exact ⟨c ++ word (pWords.getD n 0), by rw [words_succ, hc, List.append_assoc, List.append_assoc]⟩
    · refine ⟨[], ?_⟩
      rw [words_succ, List.append_nil, List.getD_eq_getElem _ _ hk']

theorem readWords_append {pWords : List UInt32} (a b : List UInt8) {n : ℕ} (h : pWords.length = n) :
    readWords (a ++ (words pWords n ++ b)) a.length n = pWords := by
  apply List.ext_getElem (by rw [readWords_length, h])
  intro k hk hk'
  rw [readWords_length] at hk
  obtain ⟨c, hc⟩ := words_split hk hk'
  have hread := readUint32_append (a ++ words pWords k) (c ++ b) pWords[k]
  rw [List.length_append, words_length] at hread
  have hget := readWords_getD (a ++ (words pWords n ++ b)) a.length hk
  rw [List.getD_eq_getElem _ _ (by rw [readWords_length]; exact hk)] at hget
  rw [hget, hc, List.append_assoc (words pWords k), ← List.append_assoc a, List.append_assoc (word _)]
  exact hread

/-! ### The header -/

/-- The arrays have the lengths the header says, and the fields fit their bits. -/
structure HeaderFits (h : RtpHeader) : Prop where
  count : h.csrcCount.toNat ≤ 15
  csrc : h.csrc.length = h.csrcCount.toNat
  payloadType : h.payloadType.toNat < 2 ^ 7
  extension : ∀ e, h.extension = some e → e.payload.length = e.extensionPayloadLength.toNat

/-- The fields of the first word. -/
theorem fields_firstWord {h : RtpHeader} (hfits : HeaderFits h) :
    getField (firstWord h) 0xC0000000 30 = 2 ∧
      (firstWord h &&& 0x20000000 ≠ 0 ↔ h.padding = true) ∧
      (firstWord h &&& 0x10000000 ≠ 0 ↔ h.extension.isSome = true) ∧
      (getField (firstWord h) 0x0F000000 24).toUInt8 = h.csrcCount ∧
      (firstWord h &&& 0x00800000 ≠ 0 ↔ h.marker = true) ∧
      (getField (firstWord h) 0x007F0000 16).toUInt8 = h.payloadType ∧
      (getField (firstWord h) 0x0000FFFF 0).toUInt16 = h.sequenceNumber := by
  have hword := firstWord_toNat h
  have hcc := hfits.count
  have hpt := hfits.payloadType
  have hseq := h.sequenceNumber.toNat_lt
  have hflag : ∀ b : Bool, b.toNat = 1 ↔ b = true := by decide
  have hp := h.padding.toNat_lt
  have hx := h.extension.isSome.toNat_lt
  have hm := h.marker.toNat_lt
  refine ⟨?_, ?_, ?_, ?_, ?_, ?_, ?_⟩
  · apply UInt32.toNat_inj.mp
    rw [getField_toNat _ _ 30 2 rfl (by decide), hword]
    show _ / 2 ^ 30 % 2 ^ 2 = 2
    omega
  · rw [getFlag _ _ 29 rfl, hword, ← hflag]
    omega
  · rw [getFlag _ _ 28 rfl, hword, ← hflag]
    omega
  · apply UInt8.toNat_inj.mp
    rw [UInt32.toNat_toUInt8, getField_toNat _ _ 24 4 rfl (by decide), hword]
    show _ / 2 ^ 24 % 2 ^ 4 % 2 ^ 8 = _
    omega
  · rw [getFlag _ _ 23 rfl, hword, ← hflag]
    omega
  · apply UInt8.toNat_inj.mp
    rw [UInt32.toNat_toUInt8, getField_toNat _ _ 16 7 rfl (by decide), hword]
    show _ / 2 ^ 16 % 2 ^ 7 % 2 ^ 8 = _
    omega
  · apply UInt16.toNat_inj.mp
    rw [UInt32.toNat_toUInt16, getField_toNat _ _ 0 16 rfl (by decide), hword]
    show _ / 2 ^ 0 % 2 ^ 16 % 2 ^ 16 = _
    omega

/-- A word of the right version is the first word of a header with its fields. -/
theorem firstWord_fields {h : RtpHeader} {w : UInt32} (hversion : getField w 0xC0000000 30 = 2)
    (hp : h.padding = decide (w &&& 0x20000000 ≠ 0)) (hx : h.extension.isSome = decide (w &&& 0x10000000 ≠ 0))
    (hcc : h.csrcCount = (getField w 0x0F000000 24).toUInt8)
    (hm : h.marker = decide (w &&& 0x00800000 ≠ 0)) (hpt : h.payloadType = (getField w 0x007F0000 16).toUInt8)
    (hseq : h.sequenceNumber = (getField w 0x0000FFFF 0).toUInt16) : firstWord h = w := by
  have hcc' : h.csrcCount.toNat = w.toNat / 2 ^ 24 % 2 ^ 4 := by
    rw [hcc, UInt32.toNat_toUInt8, getField_toNat _ _ 24 4 rfl (by decide)]
    show w.toNat / 2 ^ 24 % 2 ^ 4 % 2 ^ 8 = _
    omega
  have hpt' : h.payloadType.toNat = w.toNat / 2 ^ 16 % 2 ^ 7 := by
    rw [hpt, UInt32.toNat_toUInt8, getField_toNat _ _ 16 7 rfl (by decide)]
    show w.toNat / 2 ^ 16 % 2 ^ 7 % 2 ^ 8 = _
    omega
  have hseq' : h.sequenceNumber.toNat = w.toNat % 2 ^ 16 := by
    rw [hseq, UInt32.toNat_toUInt16, getField_toNat _ _ 0 16 rfl (by decide)]
    show w.toNat / 2 ^ 0 % 2 ^ 16 % 2 ^ 16 = _
    omega
  have hv : w.toNat / 2 ^ 30 % 2 ^ 2 = 2 := by
    rw [show w.toNat / 2 ^ 30 % 2 ^ 2 = (getField w 0xC0000000 30).toNat from
      (getField_toNat _ _ 30 2 rfl (by decide)).symm, hversion]
    rfl
  have hlt := w.toNat_lt
  apply UInt32.toNat_inj.mp
  rw [firstWord_toNat, hp, hx, hm, flag_toNat _ _ 29 rfl, flag_toNat _ _ 28 rfl,
    flag_toNat _ _ 23 rfl, hcc', hpt', hseq']
  omega

/-- The words before the extension. -/
def fixedBytes (h : RtpHeader) : List UInt8 :=
  word (firstWord h) ++ word h.timestamp ++ word h.ssrc ++ words h.csrc h.csrcCount.toNat

theorem fixedBytes_length (h : RtpHeader) : (fixedBytes h).length = 12 + 4 * h.csrcCount.toNat := by
  rw [fixedBytes, List.length_append, List.length_append, List.length_append, words_length, word_length,
    word_length, word_length]

/-- What is read from the header's words. -/
theorem readFixed_fixedBytes {h : RtpHeader} (hfits : HeaderFits h) (rest : List UInt8) :
    readUint32 (fixedBytes h ++ rest) 0 = firstWord h ∧
      readFixed (fixedBytes h ++ rest) = ({ h with extension := none }, (fixedBytes h).length) := by
  have h0 : readUint32 (fixedBytes h ++ rest) 0 = firstWord h := by
    simp only [fixedBytes, List.append_assoc]
    exact readUint32_append [] _ _
  have h4 : readUint32 (fixedBytes h ++ rest) 4 = h.timestamp := by
    simp only [fixedBytes, List.append_assoc]
    exact readUint32_append (word (firstWord h)) _ _
  have h8 : readUint32 (fixedBytes h ++ rest) 8 = h.ssrc := by
    have hread := readUint32_append (word (firstWord h) ++ word h.timestamp)
      (words h.csrc h.csrcCount.toNat ++ rest) h.ssrc
    simp only [List.length_append, word_length, List.append_assoc] at hread
    simpa only [fixedBytes, List.append_assoc] using hread
  have h12 : readWords (fixedBytes h ++ rest) 12 h.csrcCount.toNat = h.csrc := by
    have hread := readWords_append (word (firstWord h) ++ word h.timestamp ++ word h.ssrc) rest hfits.csrc
    simp only [List.length_append, word_length] at hread
    rwa [← List.append_assoc] at hread
  obtain ⟨-, hp, -, hcc, hm, hpt, hseq⟩ := fields_firstWord hfits
  refine ⟨h0, ?_⟩
  simp only [readFixed, h0, h4, h8, hcc, hm, hp, hpt, hseq, Bool.decide_eq_true]
  rw [show (List.range h.csrcCount.toNat).map (fun i => readUint32 (fixedBytes h ++ rest) (12 + 4 * i)) =
    h.csrc from h12, fixedBytes_length]

/-- The bytes are the words of what is read. -/
theorem fixedBytes_readFixed {bs : List UInt8} {x : Option RtpHeaderExtension} (h12 : 12 ≤ bs.length)
    (hversion : getField (readUint32 bs 0) 0xC0000000 30 = 2)
    (hcount : (readFixed bs).1.csrcCount.toNat * 4 ≤ bs.length - 12)
    (hx : x.isSome = decide (readUint32 bs 0 &&& 0x10000000 ≠ 0)) :
    fixedBytes { (readFixed bs).1 with extension := x } = bs.take (12 + 4 * (readFixed bs).1.csrcCount.toNat) := by
  have hfirst : firstWord { (readFixed bs).1 with extension := x } = readUint32 bs 0 :=
    firstWord_fields hversion rfl hx rfl rfl rfl rfl
  have hw0 : bs.take 0 ++ word (readUint32 bs 0) = bs.take 4 := take_word (by omega)
  have hw4 : bs.take 4 ++ word (readUint32 bs 4) = bs.take 8 := take_word (by omega)
  have hw8 : bs.take 8 ++ word (readUint32 bs 8) = bs.take 12 := take_word (by omega)
  have hwords : bs.take 12 ++ words (readWords bs 12 (readFixed bs).1.csrcCount.toNat)
      (readFixed bs).1.csrcCount.toNat = bs.take (12 + 4 * (readFixed bs).1.csrcCount.toNat) :=
    take_words (by omega) (Nat.le_refl _)
  rw [List.take_zero, List.nil_append] at hw0
  rw [fixedBytes, hfirst, hw0]
  show bs.take 4 ++ word (readUint32 bs 4) ++ word (readUint32 bs 8) ++
    words (readWords bs 12 (readFixed bs).1.csrcCount.toNat) (readFixed bs).1.csrcCount.toNat = _
  rw [hw4, hw8, hwords]

/-! ### The extension -/

theorem extensionBytes_length (x : Option RtpHeaderExtension) : (extensionBytes x).length = extensionLength x := by
  cases x with
  | none => rfl
  | some e =>
    rw [extensionBytes, List.length_append, word_length, words_length, extensionLength]
    omega

theorem fields_extensionHeader (e : RtpHeaderExtension) :
    (getField (extensionHeader e) 0xFFFF0000 16).toUInt16 = e.extensionProfile ∧
      (getField (extensionHeader e) 0x0000FFFF 0).toUInt16 = e.extensionPayloadLength := by
  have hword := extensionHeader_toNat e
  have hprofile := e.extensionProfile.toNat_lt
  have hlength := e.extensionPayloadLength.toNat_lt
  constructor
  · apply UInt16.toNat_inj.mp
    rw [UInt32.toNat_toUInt16, getField_toNat _ _ 16 16 rfl (by decide), hword]
    show _ / 2 ^ 16 % 2 ^ 16 % 2 ^ 16 = _
    omega
  · apply UInt16.toNat_inj.mp
    rw [UInt32.toNat_toUInt16, getField_toNat _ _ 0 16 rfl (by decide), hword]
    show _ / 2 ^ 0 % 2 ^ 16 % 2 ^ 16 = _
    omega

theorem extensionHeader_fields {e : RtpHeaderExtension} {w : UInt32}
    (hp : e.extensionProfile = (getField w 0xFFFF0000 16).toUInt16)
    (hl : e.extensionPayloadLength = (getField w 0x0000FFFF 0).toUInt16) : extensionHeader e = w := by
  have hp' : e.extensionProfile.toNat = w.toNat / 2 ^ 16 := by
    rw [hp, UInt32.toNat_toUInt16, getField_toNat _ _ 16 16 rfl (by decide)]
    have hlt := w.toNat_lt
    show w.toNat / 2 ^ 16 % 2 ^ 16 % 2 ^ 16 = _
    omega
  have hl' : e.extensionPayloadLength.toNat = w.toNat % 2 ^ 16 := by
    rw [hl, UInt32.toNat_toUInt16, getField_toNat _ _ 0 16 rfl (by decide)]
    show w.toNat / 2 ^ 0 % 2 ^ 16 % 2 ^ 16 = _
    omega
  apply UInt32.toNat_inj.mp
  rw [extensionHeader_toNat, hp', hl']
  omega

theorem readExtension_bytes {e : RtpHeaderExtension} (hfits : e.payload.length = e.extensionPayloadLength.toNat)
    (a b : List UInt8) :
    readExtension (a ++ (extensionBytes (some e) ++ b)) a.length =
      some (e, a.length + (extensionBytes (some e)).length) := by
  have hlength := extensionBytes_length (some e)
  have hword : readUint32 (a ++ (extensionBytes (some e) ++ b)) a.length = extensionHeader e := by
    rw [extensionBytes, List.append_assoc]
    exact readUint32_append _ _ _
  have hwords : readWords (a ++ (extensionBytes (some e) ++ b)) (a.length + 4) e.extensionPayloadLength.toNat =
      e.payload := by
    have hread := readWords_append (a ++ word (extensionHeader e)) b hfits
    rw [List.length_append, word_length, List.append_assoc] at hread
    rw [extensionBytes, List.append_assoc]
    exact hread
  obtain ⟨hp, hl⟩ := fields_extensionHeader e
  simp only [extensionLength] at hlength
  simp only [readExtension, hword, hp, hl]
  rw [if_pos (by simp only [List.length_append]; omega), if_pos (by simp only [List.length_append]; omega),
    show (List.range e.extensionPayloadLength.toNat).map
      (fun k => readUint32 (a ++ (extensionBytes (some e) ++ b)) (a.length + 4 + 4 * k)) = e.payload from hwords,
    hlength]
  congr 2
  omega

theorem bytes_readExtension {bs : List UInt8} {i j : ℕ} {e : RtpHeaderExtension}
    (h : readExtension bs i = some (e, j)) :
    bs.take i ++ extensionBytes (some e) = bs.take j ∧ j ≤ bs.length ∧
      e.payload.length = e.extensionPayloadLength.toNat := by
  rw [readExtension] at h
  split_ifs at h with h4
  dsimp only at h
  split_ifs at h with hroom
  obtain ⟨rfl, rfl⟩ := Prod.mk.inj (Option.some.inj h)
  refine ⟨?_, by omega, readWords_length bs (i + 4) _⟩
  rw [extensionBytes, extensionHeader_fields rfl rfl, ← List.append_assoc, take_word (by omega)]
  exact take_words (show i + 4 + 4 * (getField (readUint32 bs i) 0x0000FFFF 0).toUInt16.toNat ≤ _ by omega)
    (Nat.le_refl _)

/-! ### The payload and the packet -/

/-- The payload with its padding, as it stands in the bytes. -/
inductive PayloadFits (p : RtpPacket) : List UInt8 → Prop
  | none : p.payload = none → p.payloadLength = 0 → PayloadFits p []
  | plain {bytes} : p.payload = some bytes → p.payloadLength = bytes.length → bytes ≠ [] →
      p.header.padding = false → PayloadFits p []
  | padded {bytes pad} : p.payload = some bytes → p.payloadLength = bytes.length →
      p.header.padding = true → pad ≠ [] → (pad.getLastD 0).toNat = pad.length → PayloadFits p pad

theorem numPaddingOctets_append (a : List UInt8) {b : List UInt8} (h : b ≠ []) :
    numPaddingOctets (a ++ b) = (b.getLastD 0).toNat := by
  rw [numPaddingOctets, List.getLastD_eq_getLast?, List.getLastD_eq_getLast?,
    List.getLast?_append_of_ne_nil a h]

theorem readPayload_ok {bs : List UInt8} {h : RtpHeader} {i : ℕ} {p : RtpPacket}
    (hread : readPayload bs h i = .ok p) :
    p.header = h ∧ ∃ pad, PayloadFits p pad ∧ bs.drop i = p.payload.getD [] ++ pad := by
  rw [readPayload] at hread
  by_cases hi : i < bs.length
  · have hne : bs.drop i ≠ [] := fun hnil => absurd (List.drop_eq_nil_iff.mp hnil) (Nat.not_le.mpr hi)
    rw [if_pos hi] at hread
    dsimp only at hread
    by_cases hpadding : h.padding = true
    · rw [if_pos hpadding] at hread
      by_cases hnum : 0 < numPaddingOctets (bs.drop i) ∧ numPaddingOctets (bs.drop i) ≤ (bs.drop i).length
      · rw [if_pos hnum] at hread
        obtain rfl := Except.ok.inj hread
        obtain ⟨hpos, hle⟩ := hnum
        generalize hpayload : bs.drop i = payload at hpos hle
        have hlen : (payload.drop (payload.length - numPaddingOctets payload)).length =
            numPaddingOctets payload := by
          rw [List.length_drop]
          omega
        have hpad : payload.drop (payload.length - numPaddingOctets payload) ≠ [] := by
          intro hnil
          rw [hnil, List.length_nil] at hlen
          omega
        have hsplit := List.take_append_drop (payload.length - numPaddingOctets payload) payload
        refine ⟨rfl, _, .padded rfl ?_ hpadding hpad ?_, hsplit.symm⟩
        · rw [List.length_take]
          exact (Nat.min_eq_left (Nat.sub_le _ _)).symm
        · rw [hlen, ← numPaddingOctets_append _ hpad, hsplit]
      · rw [if_neg hnum] at hread
        exact nomatch hread
    · rw [if_neg hpadding] at hread
      obtain rfl := Except.ok.inj hread
      exact ⟨rfl, [], .plain rfl rfl hne (Bool.eq_false_iff.mpr hpadding), (List.append_nil _).symm⟩
  · rw [if_neg hi] at hread
    obtain rfl := Except.ok.inj hread
    exact ⟨rfl, [], .none rfl rfl, List.drop_eq_nil_iff.mpr (Nat.not_lt.mp hi)⟩

theorem readPayload_fits {bs pad : List UInt8} {i : ℕ} {p : RtpPacket} (hfits : PayloadFits p pad)
    (hbs : bs.drop i = p.payload.getD [] ++ pad) : readPayload bs p.header i = .ok p := by
  obtain ⟨header, payload, payloadLength⟩ := p
  have hlt : bs.drop i ≠ [] → i < bs.length := fun hne =>
    Nat.lt_of_not_le fun hle => hne (List.drop_eq_nil_iff.mpr hle)
  cases hfits with
  | none hp hl =>
    obtain rfl : payload = none := hp
    obtain rfl : payloadLength = 0 := hl
    rw [readPayload, if_neg (Nat.not_lt.mpr (List.drop_eq_nil_iff.mp hbs))]
  | @plain bytes hp hl hne hpadding =>
    obtain rfl : payload = some bytes := hp
    obtain rfl : payloadLength = bytes.length := hl
    have hdrop : bs.drop i = bytes := hbs.trans (List.append_nil _)
    rw [readPayload, if_pos (hlt (hdrop ▸ hne)), hdrop]
    exact if_neg (Bool.eq_false_iff.mp hpadding)
  | @padded bytes pad hp hl hpadding hne hlast =>
    obtain rfl : payload = some bytes := hp
    obtain rfl : payloadLength = bytes.length := hl
    have hdrop : bs.drop i = bytes ++ pad := hbs
    have hnum : numPaddingOctets (bytes ++ pad) = pad.length := (numPaddingOctets_append _ hne).trans hlast
    have hpos := List.length_pos_iff.mpr hne
    rw [readPayload, if_pos (hlt (hdrop ▸ List.append_ne_nil_of_right_ne_nil _ hne)), hdrop]
    dsimp only
    rw [if_pos hpadding, hnum, List.length_append, Nat.add_sub_cancel, List.take_left,
      if_pos ⟨hpos, Nat.le_add_left _ _⟩]

/-- The bytes of a packet. -/
def wire (p : RtpPacket) (pad : List UInt8) : List UInt8 := headerBytes p.header ++ (p.payload.getD [] ++ pad)

theorem headerBytes_eq (h : RtpHeader) : headerBytes h = fixedBytes h ++ extensionBytes h.extension := rfl

theorem rtpDeSerialize_wire {p : RtpPacket} {pad : List UInt8} (hheader : HeaderFits p.header)
    (hpayload : PayloadFits p pad) : rtpDeSerialize (wire p pad) = .ok p := by
  obtain ⟨h, payload, payloadLength⟩ := p
  have hwire : wire ⟨h, payload, payloadLength⟩ pad =
      fixedBytes h ++ (extensionBytes h.extension ++ (payload.getD [] ++ pad)) := by
    rw [wire, headerBytes_eq, List.append_assoc]
  have hlength := fixedBytes_length h
  obtain ⟨hfirst, hfixed⟩ := readFixed_fixedBytes hheader (extensionBytes h.extension ++ (payload.getD [] ++ pad))
  obtain ⟨hversion, -, hx, -⟩ := fields_firstWord hheader
  have hcount := hheader.count
  have htotal : (fixedBytes h ++ (extensionBytes h.extension ++ (payload.getD [] ++ pad))).length ≥
      12 + 4 * h.csrcCount.toNat := by
    rw [List.length_append]
    omega
  rw [hwire, rtpDeSerialize, if_neg (by show ¬ _ < 12; omega), hfirst,
    if_neg (by rw [hversion]; exact not_not.mpr rfl),
    hfixed]
  dsimp only
  rw [if_pos (by omega)]
  cases hext : h.extension with
  | none =>
    rw [hext] at hx
    have hh : ({ h with extension := none } : RtpHeader) = h := by rw [← hext]
    rw [if_neg (fun hbit => Bool.false_ne_true (hx.mp hbit)), hh]
    apply readPayload_fits (p := ⟨h, payload, payloadLength⟩) hpayload
    rw [extensionBytes, List.nil_append, List.drop_left]
  | some e =>
    rw [hext] at hx
    have hh : ({ h with extension := some e } : RtpHeader) = h := by rw [← hext]
    rw [if_pos (hx.mpr rfl), readExtension_bytes (hheader.extension e hext)]
    dsimp only
    rw [hh]
    apply readPayload_fits (p := ⟨h, payload, payloadLength⟩) hpayload
    rw [← List.append_assoc, ← List.length_append, List.drop_left]

theorem wire_rtpDeSerialize {bs : List UInt8} {p : RtpPacket} (hread : rtpDeSerialize bs = .ok p) :
    HeaderFits p.header ∧ ∃ pad, PayloadFits p pad ∧ bs = wire p pad := by
  rw [rtpDeSerialize] at hread
  by_cases h12 : bs.length < rtpHeaderMinLength
  · rw [if_pos h12] at hread
    exact nomatch hread
  rw [if_neg h12] at hread
  have h12' : 12 ≤ bs.length := Nat.not_lt.mp h12
  by_cases hversion : getField (readUint32 bs 0) 0xC0000000 30 = 2
  swap
  · rw [if_pos hversion] at hread
    exact nomatch hread
  rw [if_neg (not_not.mpr hversion)] at hread
  dsimp only at hread
  by_cases hcount : (readFixed bs).1.csrcCount.toNat * 4 ≤ bs.length - 12
  swap
  · rw [if_neg hcount] at hread
    exact nomatch hread
  rw [if_pos hcount] at hread
  have hcc : (readFixed bs).1.csrcCount.toNat ≤ 15 := by
    show ((getField (readUint32 bs 0) 0x0F000000 24).toUInt8).toNat ≤ 15
    rw [UInt32.toNat_toUInt8, getField_toNat _ _ 24 4 rfl (by decide)]
    omega
  have hpt : (readFixed bs).1.payloadType.toNat < 2 ^ 7 := by
    show ((getField (readUint32 bs 0) 0x007F0000 16).toUInt8).toNat < 2 ^ 7
    rw [UInt32.toNat_toUInt8, getField_toNat _ _ 16 7 rfl (by decide)]
    omega
  have hcsrc : (readFixed bs).1.csrc.length = (readFixed bs).1.csrcCount.toNat := readWords_length bs 12 _
  by_cases hx : readUint32 bs 0 &&& 0x10000000 ≠ 0
  · rw [if_pos hx] at hread
    cases hext : readExtension bs (readFixed bs).2 with
    | none =>
      rw [hext] at hread
      exact nomatch hread
    | some r =>
      obtain ⟨e, j⟩ := r
      rw [hext] at hread
      obtain ⟨hbytes, hj, hlength⟩ := bytes_readExtension hext
      obtain ⟨hheader, pad, hpayload, hdrop⟩ := readPayload_ok hread
      refine ⟨?_, pad, hpayload, ?_⟩
      · rw [hheader]
        exact ⟨hcc, hcsrc, hpt, fun e' he => Option.some.inj he ▸ hlength⟩
      · rw [wire, hheader, headerBytes_eq, fixedBytes_readFixed (x := some e) h12' hversion hcount
          (decide_eq_true hx).symm, ← hdrop]
        show bs = bs.take (readFixed bs).2 ++ extensionBytes (some e) ++ bs.drop j
        rw [hbytes, List.take_append_drop]
  · rw [if_neg hx] at hread
    obtain ⟨hheader, pad, hpayload, hdrop⟩ := readPayload_ok hread
    refine ⟨?_, pad, hpayload, ?_⟩
    · rw [hheader]
      exact ⟨hcc, hcsrc, hpt, nofun⟩
    · have hfixed : fixedBytes (readFixed bs).1 = bs.take (readFixed bs).2 :=
        fixedBytes_readFixed (x := none) h12' hversion hcount (decide_eq_false hx).symm
      rw [wire, hheader, headerBytes_eq, hfixed, ← hdrop]
      show bs = bs.take (readFixed bs).2 ++ [] ++ bs.drop (readFixed bs).2
      rw [List.append_nil, List.take_append_drop]

/-- Reading succeeds exactly on the bytes of a packet whose fields fit, with or without padding, and gives that
packet; no bytes are those of two packets. -/
theorem rtpDeSerialize_iff (bs : List UInt8) (p : RtpPacket) :
    rtpDeSerialize bs = .ok p ↔ HeaderFits p.header ∧ ∃ pad, PayloadFits p pad ∧ bs = wire p pad := by
  refine ⟨wire_rtpDeSerialize, ?_⟩
  rintro ⟨hheader, pad, hpayload, rfl⟩
  exact rtpDeSerialize_wire hheader hpayload

/-! ### Writing -/

/-- The payload is there with the length said, and with padding its last byte counts that. -/
structure PayloadSent (p : RtpPacket) : Prop where
  length : p.payloadLength = (p.payload.getD []).length
  padding : p.header.padding = true → p.payload.getD [] ≠ [] →
    0 < numPaddingOctets (p.payload.getD []) ∧ numPaddingOctets (p.payload.getD []) ≤ p.payloadLength

theorem headerBytes_length (h : RtpHeader) :
    (headerBytes h).length = 12 + h.csrcCount.toNat * 4 + extensionLength h.extension := by
  rw [headerBytes_eq, List.length_append, fixedBytes_length, extensionBytes_length]
  omega

theorem rtpSerialize_some {p : RtpPacket} (hheader : HeaderFits p.header) (hpayload : PayloadSent p)
    (buffer : List UInt8) {pLength : ℕ} (h32 : pLength < 2 ^ 32)
    (hroom : (headerBytes p.header ++ p.payload.getD []).length ≤ pLength) :
    rtpSerialize p (some buffer) pLength =
      (.ok, (headerBytes p.header ++ p.payload.getD []).length,
        some (overwrite buffer (headerBytes p.header ++ p.payload.getD []))) := by
  have hcount : ¬ p.header.csrcCount > 15 := by
    intro hgt
    have hlt : (15 : UInt8).toNat < p.header.csrcCount.toNat := UInt8.lt_iff_toNat_lt.mp hgt
    exact absurd hheader.count (Nat.not_le.mpr hlt)
  have hlength : 12 + p.header.csrcCount.toNat * 4 + extensionLength p.header.extension + p.payloadLength =
      (headerBytes p.header ++ p.payload.getD []).length := by
    rw [List.length_append, headerBytes_length, hpayload.length]
  have hmax : ¬ sizeMax - (rtpHeaderMinLength + p.header.csrcCount.toNat * 4 +
      extensionLength p.header.extension) < p.payloadLength := by
    show ¬ 4294967295 - (12 + p.header.csrcCount.toNat * 4 + extensionLength p.header.extension) < _
    omega
  have hcalc : calculateSerializedPacketLength p = some (headerBytes p.header ++ p.payload.getD []).length := by
    rw [calculateSerializedPacketLength, if_neg hcount]
    dsimp only
    rw [if_neg hmax, ← hlength]
  have hfits : ¬ pLength < (headerBytes p.header ++ p.payload.getD []).length := Nat.not_lt.mpr hroom
  simp only [rtpSerialize, hcalc]
  rw [if_neg hfits]
  have hsent := hpayload.padding
  have hlen := hpayload.length
  cases hp : p.payload with
  | none => rw [Option.getD_none, List.append_nil]
  | some bytes =>
    rw [hp, Option.getD_some] at hsent hlen
    rw [Option.getD_some]
    dsimp only
    rw [hlen, List.take_length, if_neg]
    rintro ⟨hpos, hpadding, hbad⟩
    obtain ⟨h1, h2⟩ := hsent hpadding (List.length_pos_iff.mp hpos)
    rw [hlen] at h2
    omega

/-- What is written is read again: the header as it was, and the payload less the padding its last byte counts.
Nothing is written behind the packet. -/
theorem rtpSerialize_roundtrip {p : RtpPacket} (hheader : HeaderFits p.header) (hpayload : PayloadSent p)
    (buffer : List UInt8) {pLength : ℕ} (h32 : pLength < 2 ^ 32) (hbuffer : pLength ≤ buffer.length)
    (hroom : (headerBytes p.header ++ p.payload.getD []).length ≤ pLength) :
    ∃ n out, rtpSerialize p (some buffer) pLength = (.ok, n, some out) ∧ out.length = buffer.length ∧
      out.drop n = buffer.drop n ∧
      ∃ q pad, rtpDeSerialize (out.take n) = .ok q ∧ q.header = p.header ∧
        p.payload.getD [] = q.payload.getD [] ++ pad ∧
        pad.length = if p.header.padding then numPaddingOctets (p.payload.getD []) else 0 := by
  refine ⟨_, _, rtpSerialize_some hheader hpayload buffer h32 hroom, ?_, ?_, ?_⟩
  · rw [overwrite, List.length_append, List.length_drop]
    omega
  · rw [overwrite, List.drop_left]
  · rw [overwrite, List.take_left]
    by_cases hnil : p.payload.getD [] = []
    · have hread := rtpDeSerialize_wire (p := ⟨p.header, none, 0⟩) hheader (.none rfl rfl)
      rw [hnil]
      refine ⟨⟨p.header, none, 0⟩, [], hread, rfl, rfl, ?_⟩
      split_ifs <;> rfl
    · generalize hpay : p.payload.getD [] = bytes at hnil
      by_cases hpadding : p.header.padding = true
      · obtain ⟨hpos, hle⟩ := hpayload.padding hpadding (hpay ▸ hnil)
        rw [hpayload.length, hpay] at hle
        rw [hpay] at hpos
        have hsplit := List.take_append_drop (bytes.length - numPaddingOctets bytes) bytes
        have hlen : (bytes.drop (bytes.length - numPaddingOctets bytes)).length = numPaddingOctets bytes := by
          rw [List.length_drop]
          omega
        have hpad : bytes.drop (bytes.length - numPaddingOctets bytes) ≠ [] := by
          intro h
          rw [h, List.length_nil] at hlen
          omega
        have hlast : ((bytes.drop (bytes.length - numPaddingOctets bytes)).getLastD 0).toNat =
            (bytes.drop (bytes.length - numPaddingOctets bytes)).length := by
          rw [hlen, ← numPaddingOctets_append (bytes.take (bytes.length - numPaddingOctets bytes)) hpad, hsplit]
        have hread := rtpDeSerialize_wire
          (p := ⟨p.header, some (bytes.take (bytes.length - numPaddingOctets bytes)), _⟩)
          hheader (.padded rfl rfl hpadding hpad hlast)
        rw [wire, Option.getD_some, hsplit] at hread
        exact ⟨_, _, hread, rfl, hsplit.symm, by rw [if_pos hpadding, hlen]⟩
      · have hread := rtpDeSerialize_wire (p := ⟨p.header, some bytes, bytes.length⟩) hheader
          (.plain rfl rfl hnil (Bool.eq_false_iff.mpr hpadding))
        rw [wire, Option.getD_some, List.append_nil] at hread
        exact ⟨_, [], hread, rfl, (List.append_nil _).symm, by rw [if_neg hpadding]; rfl⟩

/-- A packet with one CSRC, an extension of one word and two bytes of padding. -/
def samplePacket : RtpPacket :=
  ⟨⟨true, true, some ⟨0xBEDE, 1, [0x10FF0000]⟩, 1, 96, 65535, 90000, 7, [42]⟩, some [1, 2, 3, 0, 2], 5⟩

theorem rtpSerialize_roundtrip_sample : ∃ n out,
    rtpSerialize samplePacket (some (List.replicate 32 0)) 32 = (.ok, n, some out) ∧
      out.length = (List.replicate 32 (0 : UInt8)).length ∧
      out.drop n = (List.replicate 32 0).drop n ∧
      ∃ q pad, rtpDeSerialize (out.take n) = .ok q ∧ q.header = samplePacket.header ∧
        samplePacket.payload.getD [] = q.payload.getD [] ++ pad ∧
        pad.length = if samplePacket.header.padding then numPaddingOctets (samplePacket.payload.getD []) else 0 :=
  rtpSerialize_roundtrip
    ⟨by decide, rfl, by decide, fun e he => by cases he; rfl⟩ ⟨rfl, by decide⟩ _ (by decide) (by decide) (by decide)

end IotcRa8p1.Media.Rtp
