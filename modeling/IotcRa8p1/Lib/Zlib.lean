import IotcRa8p1.Lib.ByteMem
import Mathlib.Algebra.BigOperators.Group.Finset.Basic
import Mathlib.Tactic.Ring

/-!
# zlib streams of stored blocks

A stored block is a byte with BFINAL, the length of the data and its complement, and the data.  `inflate`
takes blocks off until a final one; `decompress` wants a zlib header before them, the Adler-32 of what they
hold behind them, and nothing else.  Both reject every other kind of block.

`decompress_compress` is the round trip.
-/

namespace IotcRa8p1.Zlib

open ByteMem

/-! ### Adler-32 -/

/-- The sum of the bytes, with one more. -/
def sumA (bs : List UInt8) : ℕ := (1 + (bs.map UInt8.toNat).sum) % 65521

/-- The sum of the `sumA` of every nonempty prefix. -/
def sumB (bs : List UInt8) : ℕ := (∑ k ∈ Finset.range bs.length, sumA (bs.take (k + 1))) % 65521

def adler32 (bs : List UInt8) : ℕ := sumB bs * 65536 + sumA bs

theorem sumA_concat (bs : List UInt8) (b : UInt8) :
    sumA (bs ++ [b]) = (sumA bs + b.toNat) % 65521 := by
  rw [sumA, sumA, List.map_append, List.sum_append, List.map_singleton, List.sum_singleton, ← add_assoc,
    Nat.mod_add_mod]

theorem sumB_concat (bs : List UInt8) (b : UInt8) :
    sumB (bs ++ [b]) = (sumB bs + sumA (bs ++ [b])) % 65521 := by
  have hprefix (k : ℕ) (hk : k ∈ Finset.range bs.length) :
      sumA ((bs ++ [b]).take (k + 1)) = sumA (bs.take (k + 1)) := by
    rw [List.take_append_of_le_length (Finset.mem_range.mp hk)]
  rw [sumB, sumB, List.length_append, List.length_singleton, Finset.sum_range_succ,
    Finset.sum_congr rfl hprefix, List.take_of_length_le (by simp), Nat.mod_add_mod]

theorem sumA_lt (bs : List UInt8) : sumA bs < 65521 := Nat.mod_lt _ (by decide)

/-! ### Stored blocks -/

/-- A stored block of at most 65535 bytes. -/
def storedBlock (final : Bool) (data : List UInt8) : List UInt8 :=
  [if final = true then 1 else 0] ++ leBytes 2 data.length ++ leBytes 2 (65535 - data.length) ++ data

/-- BFINAL and the data of the first block, and what follows it. -/
def takeBlock (bs : List UInt8) : Option (Bool × List UInt8 × List UInt8) :=
  let len := leNat ((bs.drop 1).take 2)
  if bs.length < 5 + len then none
  else if leNat ((bs.drop 3).take 2) ≠ 65535 - len then none
  else
    match bs.head? with
    | some 0 => some (false, (bs.drop 5).take len, bs.drop (5 + len))
    | some 1 => some (true, (bs.drop 5).take len, bs.drop (5 + len))
    | _ => none

theorem takeBlock_length {bs data rest : List UInt8} {final : Bool}
    (h : takeBlock bs = some (final, data, rest)) : rest.length < bs.length := by
  unfold takeBlock at h
  dsimp only at h
  split_ifs at h with hlen hneg
  have hrest : rest = bs.drop (5 + leNat ((bs.drop 1).take 2)) := by
    split at h
    · exact (Prod.mk.inj (Prod.mk.inj (Option.some.inj h)).2).2.symm
    · exact (Prod.mk.inj (Prod.mk.inj (Option.some.inj h)).2).2.symm
    · contradiction
  rw [hrest, List.length_drop]
  omega

/-- The data of the blocks up to a final one, and what follows it. -/
def inflate (bs : List UInt8) : Option (List UInt8 × List UInt8) :=
  match _h : takeBlock bs with
  | none => none
  | some (true, data, rest) => some (data, rest)
  | some (false, data, rest) => (inflate rest).map fun r => (data ++ r.1, r.2)
termination_by bs.length
decreasing_by exact takeBlock_length _h

/-- All blocks full but the last, which is final. -/
def deflate (raw : List UInt8) : List UInt8 :=
  if _h : raw.length ≤ 65535 then storedBlock true raw
  else storedBlock false (raw.take 65535) ++ deflate (raw.drop 65535)
termination_by raw.length
decreasing_by
  rw [List.length_drop]
  omega

theorem storedBlock_length (final : Bool) (data : List UInt8) :
    (storedBlock final data).length = 5 + data.length := by
  simp only [storedBlock, List.length_append, List.length_singleton, leBytes_length]

theorem takeBlock_storedBlock (final : Bool) {data : List UInt8} (hdata : data.length ≤ 65535)
    (rest : List UInt8) :
    takeBlock (storedBlock final data ++ rest) = some (final, data, rest) := by
  let b := if final = true then (1 : UInt8) else 0
  have hblock : storedBlock final data ++ rest =
      [b] ++ (leBytes 2 data.length ++ (leBytes 2 (65535 - data.length) ++ (data ++ rest))) := by
    simp only [storedBlock, List.append_assoc]
    rfl
  have hlen : leNat (((storedBlock final data ++ rest).drop 1).take 2) = data.length := by
    rw [hblock, List.drop_left' (by rfl), List.take_left' (leBytes_length 2 _),
      leNat_leBytes_of_lt 2 _ (by omega)]
  have hneg : leNat (((storedBlock final data ++ rest).drop 3).take 2) = 65535 - data.length := by
    rw [hblock, ← List.append_assoc, List.drop_left' (by simp), List.take_left' (leBytes_length 2 _),
      leNat_leBytes_of_lt 2 _ (by omega)]
  have hdrop : (storedBlock final data ++ rest).drop 5 = data ++ rest := by
    rw [hblock, ← List.append_assoc, ← List.append_assoc, List.drop_left' (by simp)]
  unfold takeBlock
  dsimp only
  rw [hlen, hneg, hdrop, List.take_left, List.length_append, storedBlock_length, if_neg (by omega),
    if_neg (fun h => h rfl), ← List.drop_drop, hdrop, List.drop_left, hblock]
  cases final with
  | false => rfl
  | true => rfl

theorem inflate_deflate (raw rest : List UInt8) : inflate (deflate raw ++ rest) = some (raw, rest) := by
  induction raw using deflate.induct with
  | case1 raw h =>
    rw [deflate, dif_pos h, inflate]
    have htake := takeBlock_storedBlock true h rest
    split
    · rename_i hnone
      rw [hnone] at htake
      contradiction
    · rename_i data tail hsome
      rw [hsome] at htake
      simpa using htake
    · rename_i data tail hsome
      rw [hsome] at htake
      simp at htake
  | case2 raw h ih =>
    rw [deflate, dif_neg h, List.append_assoc, inflate]
    have hlen : (raw.take 65535).length ≤ 65535 := List.length_take_le _ _
    have htake := takeBlock_storedBlock false hlen (deflate (raw.drop 65535) ++ rest)
    split
    · rename_i hnone
      rw [hnone] at htake
      contradiction
    · rename_i data tail hsome
      rw [hsome] at htake
      simp at htake
    · rename_i data tail hsome
      rw [hsome, Option.some.injEq, Prod.mk.injEq, Prod.mk.injEq] at htake
      obtain ⟨-, rfl, rfl⟩ := htake
      rw [ih]
      simp

theorem deflate_length (raw : List UInt8) :
    (deflate raw).length = raw.length + 5 * max 1 ((raw.length + 65534) / 65535) := by
  induction raw using deflate.induct with
  | case1 raw h =>
    rw [deflate, dif_pos h, storedBlock_length]
    omega
  | case2 raw h ih =>
    rw [deflate, dif_neg h, List.length_append, storedBlock_length, ih, List.length_take,
      List.length_drop]
    omega

/-! ### zlib streams -/

/-- Deflate with a window of 32 KiB, no dictionary, the fastest level. -/
def header : List UInt8 := [0x78, 0x01]

def compress (raw : List UInt8) : List UInt8 := header ++ deflate raw ++ beBytes 4 (adler32 raw)

/-- The method is deflate, there is no dictionary, and FCHECK is right. -/
def headerOk (cmf flg : ℕ) : Bool :=
  cmf % 16 = 8 && cmf / 16 ≤ 7 && (256 * cmf + flg) % 31 = 0 && flg / 32 % 2 = 0

def decompress (bs : List UInt8) : Option (List UInt8) :=
  match bs with
  | cmf :: flg :: blocks =>
    if headerOk cmf.toNat flg.toNat = false then none
    else
      match inflate blocks with
      | none => none
      | some (raw, trailer) => if trailer = beBytes 4 (adler32 raw) then some raw else none
  | _ => none

/-- **Round trip.** -/
theorem decompress_compress (raw : List UInt8) : decompress (compress raw) = some raw := by
  show (if headerOk 0x78 0x01 = false then none
    else
      match inflate (deflate raw ++ beBytes 4 (adler32 raw)) with
      | none => none
      | some (raw, trailer) => if trailer = beBytes 4 (adler32 raw) then some raw else none) = some raw
  rw [inflate_deflate, if_neg (by decide)]
  exact if_pos rfl

theorem compress_length (raw : List UInt8) :
    (compress raw).length = 6 + raw.length + 5 * max 1 ((raw.length + 65534) / 65535) := by
  rw [compress, List.length_append, List.length_append, deflate_length, beBytes_length, header,
    List.length_cons, List.length_singleton]
  omega

end IotcRa8p1.Zlib
