import IotcRa8p1.Lib.BitField

/-!
# Tagged records

A record is a 16-bit tag, the 16-bit length of its value, the value, and bytes up to the next 32-bit word, all in
network order.  What may follow what is a step function on a state: `Reads` says that bytes are a sequence of
records that it allows, `Overruns` that the last one's padding is missing, so that a reader that goes on at the
next word has left the bytes.
-/

namespace IotcRa8p1.Tlv

open ByteMem BitField

structure Item where
  tag : UInt16
  value : List UInt8
  deriving DecidableEq, Repr

/-- The bytes between the end of `n` bytes and the next word. -/
def padLength (n : ℕ) : ℕ := (4 - n % 4) % 4

/-- The record without its padding. -/
def Item.bytes (a : Item) : List UInt8 := beBytes 2 a.tag.toNat ++ beBytes 2 a.value.length ++ a.value

/-- The record with zeros behind it. -/
def Item.wire (a : Item) : List UInt8 := a.bytes ++ List.replicate (padLength a.value.length) 0

/-- The tag at the front of the bytes. -/
def tagOf (bs : List UInt8) : UInt16 := UInt16.ofNat (beNat (bs.take 2))

/-- The length at the front of the bytes. -/
def lengthOf (bs : List UInt8) : ℕ := beNat ((bs.drop 2).take 2)

variable {σ : Type*} (step : σ → Item → Option σ)

/-- The bytes are records, with less than the head of one behind them. -/
inductive Reads : σ → List UInt8 → List Item → Prop
  | done {s : σ} {tail : List UInt8} : tail.length < 4 → Reads s tail []
  | item {s s' : σ} {a : Item} {pad rest : List UInt8} {as : List Item} : a.value.length < 65536 →
      step s a = some s' → pad.length = padLength a.value.length → Reads s' rest as →
      Reads s (a.bytes ++ pad ++ rest) (a :: as)

/-- The bytes end inside the padding of a record. -/
inductive Overruns : σ → List UInt8 → List Item → Prop
  | here {s s' : σ} {a : Item} {pad : List UInt8} : a.value.length < 65536 → step s a = some s' →
      pad.length < padLength a.value.length → Overruns s (a.bytes ++ pad) [a]
  | item {s s' : σ} {a : Item} {pad rest : List UInt8} {as : List Item} : a.value.length < 65536 →
      step s a = some s' → pad.length = padLength a.value.length → Overruns s' rest as →
      Overruns s (a.bytes ++ pad ++ rest) (a :: as)

theorem padLength_lt (n : ℕ) : padLength n < 4 := Nat.mod_lt _ (by decide)

theorem add_padLength_mod (n : ℕ) : (n + padLength n) % 4 = 0 := by
  unfold padLength
  omega

@[simp] theorem bytes_length (a : Item) : a.bytes.length = 4 + a.value.length := by
  simp only [Item.bytes, List.length_append, beBytes_length]

theorem wire_length (a : Item) : a.wire.length = 4 + (a.value.length + padLength a.value.length) := by
  rw [Item.wire, List.length_append, bytes_length, List.length_replicate, Nat.add_assoc]

theorem tagOf_bytes (a : Item) (rest : List UInt8) : tagOf (a.bytes ++ rest) = a.tag := by
  have h : (a.bytes ++ rest).take 2 = beBytes 2 a.tag.toNat := by
    rw [Item.bytes, List.append_assoc, List.append_assoc, List.take_left' (beBytes_length 2 _)]
  rw [tagOf, h, beNat_beBytes_of_lt 2 _ a.tag.toNat_lt]
  exact UInt16.ofNat_toNat

theorem lengthOf_bytes {a : Item} (h : a.value.length < 65536) (rest : List UInt8) :
    lengthOf (a.bytes ++ rest) = a.value.length := by
  have hd : (a.bytes ++ rest).drop 2 = beBytes 2 a.value.length ++ (a.value ++ rest) := by
    rw [Item.bytes, List.append_assoc, List.append_assoc, List.drop_left' (beBytes_length 2 _)]
  rw [lengthOf, hd, List.take_left' (beBytes_length 2 _), beNat_beBytes_of_lt 2 _ h]

theorem value_bytes (a : Item) (rest : List UInt8) :
    ((a.bytes ++ rest).drop 4).take a.value.length = a.value := by
  have hd : (a.bytes ++ rest).drop 4 = a.value ++ rest := by
    rw [Item.bytes, List.append_assoc]
    exact List.drop_left' (by simp)
  rw [hd, List.take_left' rfl]

theorem lengthOf_lt (bs : List UInt8) : lengthOf bs < 65536 := by
  have h := beNat_lt ((bs.drop 2).take 2)
  have hl : ((bs.drop 2).take 2).length ≤ 2 := List.length_take_le 2 _
  exact lt_of_lt_of_le h (Nat.pow_le_pow_right (by decide) hl)

/-- Bytes that hold the head and the value of a record start with it. -/
theorem bytes_split {bs : List UInt8} (h4 : 4 ≤ bs.length) (hv : 4 + lengthOf bs ≤ bs.length) :
    (Item.mk (tagOf bs) ((bs.drop 4).take (lengthOf bs))).bytes ++ bs.drop (4 + lengthOf bs) = bs := by
  have htag : beBytes 2 (tagOf bs).toNat = bs.take 2 := by
    have hl : (bs.take 2).length = 2 := by rw [List.length_take]; omega
    have hlt : beNat (bs.take 2) < 2 ^ 16 := by
      have h := beNat_lt (bs.take 2)
      rwa [hl] at h
    rw [tagOf, UInt16.toNat_ofNat', Nat.mod_eq_of_lt hlt]
    have h := beBytes_beNat (bs.take 2)
    rwa [hl] at h
  have hlen : beBytes 2 ((bs.drop 4).take (lengthOf bs)).length = (bs.drop 2).take 2 := by
    have hl : ((bs.drop 2).take 2).length = 2 := by rw [List.length_take, List.length_drop]; omega
    rw [List.length_take, List.length_drop, Nat.min_eq_left (by omega), lengthOf]
    have h := beBytes_beNat ((bs.drop 2).take 2)
    rwa [hl] at h
  have hdrop : bs.drop (4 + lengthOf bs) = (bs.drop 4).drop (lengthOf bs) := by
    rw [List.drop_drop]
  have hdrop4 : bs.drop 4 = (bs.drop 2).drop 2 := by rw [List.drop_drop]
  simp only [Item.bytes]
  rw [htag, hlen, hdrop, List.append_assoc, List.take_append_drop, hdrop4, List.append_assoc,
    List.take_append_drop, List.take_append_drop]

variable {step}

/-- Only bytes that are no whole number of words end inside a padding. -/
theorem Overruns.length_mod {s : σ} {bs : List UInt8} {as : List Item} (h : Overruns step s bs as) :
    bs.length % 4 ≠ 0 ∧ 4 < bs.length := by
  induction h with
  | @here s s' a pad _ _ hpad =>
    rw [List.length_append, bytes_length]
    unfold padLength at hpad
    omega
  | @item s s' a pad rest as _ _ hpad _ ih =>
    have h4 := add_padLength_mod a.value.length
    rw [List.length_append, List.length_append, bytes_length, hpad]
    omega

end IotcRa8p1.Tlv
