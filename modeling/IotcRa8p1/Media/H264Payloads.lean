import IotcRa8p1.Lib.ByteMem
import IotcRa8p1.Media.H264Units
import Mathlib.Algebra.BigOperators.Group.List.Basic

/-!
# The payloads of units, and the packetizer

`Carries` is the payload format: single units, fragments and aggregates.  A packetizer that holds units gives
out payloads that carry them, whatever the size of each buffer it is given (`drain_carries`), and each payload
fits its buffer (`drain_fits`).
-/

namespace IotcRa8p1.Media.H264

/-! ### The format -/

/-- The header of a unit has its forbidden bit clear and one of the types a packet of its own may have. -/
structure WellFormed (nalu : Nalu) : Prop where
  ne : nalu ≠ []
  forbidden : nalu.headD 0 &&& 0x80 = 0
  start : singleNaluPacketTypeStart ≤ nalu.headD 0 &&& naluHeaderTypeMask
  stop : nalu.headD 0 &&& naluHeaderTypeMask ≤ singleNaluPacketTypeEnd

instance (nalu : Nalu) : Decidable (WellFormed nalu) :=
  decidable_of_iff (nalu ≠ [] ∧ nalu.headD 0 &&& 0x80 = 0 ∧
      singleNaluPacketTypeStart ≤ nalu.headD 0 &&& naluHeaderTypeMask ∧
      nalu.headD 0 &&& naluHeaderTypeMask ≤ singleNaluPacketTypeEnd)
    ⟨fun ⟨h1, h2, h3, h4⟩ => ⟨h1, h2, h3, h4⟩, fun ⟨h1, h2, h3, h4⟩ => ⟨h1, h2, h3, h4⟩⟩

/-- The second byte of a fragment. -/
def fuHeaderOf (first last : Bool) (header : UInt8) : UInt8 :=
  (if first then fuAHeaderSBitMask else 0) ||| (if last then fuAHeaderEBitMask else 0) |||
    header &&& naluHeaderTypeMask

/-- A fragment with the bytes `chunk` of a unit with this header. -/
def fragment (header : UInt8) (first last : Bool) (chunk : List UInt8) : H264Packet :=
  (fuAPacketType ||| header &&& naluHeaderNriMask) :: fuHeaderOf first last header :: chunk

/-- The fragments that carry the chunks; `first` marks the first one, the last one is marked as such. -/
def fragments (header : UInt8) (first : Bool) : List (List UInt8) → List H264Packet
  | [] => []
  | [chunk] => [fragment header first true chunk]
  | chunk :: chunks => fragment header first false chunk :: fragments header false chunks

/-- The units of an aggregate, each behind its length. -/
def aggregate : List Nalu → List UInt8
  | [] => []
  | nalu :: nalus => UInt8.ofNat (nalu.length / 256) :: UInt8.ofNat nalu.length :: (nalu ++ aggregate nalus)

/-- The payloads carry the units, in order. -/
inductive Carries : List H264Packet → List Nalu → Prop
  | nil : Carries [] []
  | single {nalu packets nalus} : WellFormed nalu → Carries packets nalus →
      Carries (nalu :: packets) (nalu :: nalus)
  | fuA {header chunks packets nalus} : header &&& 0x80 = 0 → chunks ≠ [] → Carries packets nalus →
      Carries (fragments header true chunks ++ packets) ((header :: chunks.flatten) :: nalus)
  | stapA {header units packets nalus} : header &&& naluHeaderTypeMask = stapAPacketType →
      units ≠ [] → (∀ nalu ∈ units, nalu.length < 2 ^ 16) → Carries packets nalus →
      Carries ((header :: aggregate units) :: packets) (units ++ nalus)

/-! ### The state of the packetizer -/

/-- The units wait in the array, none of them begun. -/
structure Queued (ctx : PacketizerContext) (nalus : List Nalu) : Prop where
  count : ctx.naluCount = nalus.length
  slots : ∀ i nalu, nalus[i]? = some nalu → ctx.naluArray (ctx.tailIndex + i) = some nalu
  idle : ctx.currentlyProcessingPacket = .none

/-- The first unit is in fragments: its header and `sent` bytes more are out. -/
structure Fragmenting (ctx : PacketizerContext) (nalu : Nalu) (sent : ℕ) (nalus : List Nalu) : Prop where
  count : ctx.naluCount = nalus.length + 1
  slots : ∀ i n, (nalu :: nalus)[i]? = some n → ctx.naluArray (ctx.tailIndex + i) = some n
  busy : ctx.currentlyProcessingPacket = .fuA
  state : ctx.fuAPacketizationState = ⟨nalu.headD 0, 1 + sent, nalu.length - 1 - sent⟩
  left : sent + 1 < nalu.length

variable {ctx : PacketizerContext} {nalu : Nalu} {nalus : List Nalu} {size sent : ℕ}

theorem slots_tail {array : ℕ → Option Nalu} {tail : ℕ}
    (h : ∀ i n, (nalu :: nalus)[i]? = some n → array (tail + i) = some n) (i : ℕ) (n : Nalu)
    (hn : nalus[i]? = some n) : array (tail + 1 + i) = some n := by
  rw [Nat.add_assoc, Nat.add_comm 1 i]
  exact h (i + 1) n hn

/-! ### One payload -/

theorem getPacket_none (h : Queued ctx []) (hsize : size ≠ 0) : (getPacket ctx size).1 = .noMorePackets := by
  have hcount : ctx.naluCount = 0 := h.count
  rw [getPacket, if_neg hsize, if_pos hcount]

theorem getPacket_single (h : Queued ctx (nalu :: nalus)) (hsize : size ≠ 0) (hfit : nalu.length ≤ size) :
    getPacket ctx size = (.ok, packetizeSingleNaluPacket ctx nalu) := by
  have hslot : ctx.naluArray ctx.tailIndex = some nalu := h.slots 0 nalu rfl
  have hcount : ctx.naluCount ≠ 0 := by rw [h.count]; exact Nat.succ_ne_zero _
  have hidle : ctx.currentlyProcessingPacket ≠ .fuA := by rw [h.idle]; exact H264PacketType.noConfusion
  rw [getPacket, if_neg hsize, if_neg hcount, hslot]
  exact (if_neg hidle).trans (if_pos hfit)

theorem Queued.single (h : Queued ctx (nalu :: nalus)) :
    Queued (packetizeSingleNaluPacket ctx nalu).1 nalus where
  count := by show ctx.naluCount - 1 = _; rw [h.count]; rfl
  slots := slots_tail h.slots
  idle := h.idle

/-- The unit is longer than the buffer: its header and as many bytes as fit go out in the first fragment. -/
theorem getPacket_first (h : Queued ctx (nalu :: nalus)) (h3 : 3 ≤ size) (h32 : size < 2 ^ 32)
    (hlong : size < nalu.length) : ∃ ctx', getPacket ctx size =
      (.ok, ctx', fragment (nalu.headD 0) true false ((nalu.drop 1).take (size - 2))) ∧
        Fragmenting ctx' nalu (size - 2) nalus := by
  have hslot : ctx.naluArray ctx.tailIndex = some nalu := h.slots 0 nalu rfl
  have hcount : ctx.naluCount ≠ 0 := by rw [h.count]; exact Nat.succ_ne_zero _
  have hmin : min (sizeSub size fuAHeaderSize) (nalu.length - 1) = size - 2 := by
    rw [sizeSub_of_le (Nat.le_of_succ_le h3) h32]
    exact Nat.min_eq_left (by show size - 2 ≤ _; omega)
  have hmore : nalu.length - 1 ≠ size - 2 := by omega
  have hleft : nalu.length - 1 - (size - 2) ≠ 0 := by omega
  refine ⟨{ startFuA ctx nalu with fuAPacketizationState :=
    ⟨nalu.headD 0, 1 + (size - 2), nalu.length - 1 - (size - 2)⟩ }, ?_, ?_⟩
  · rw [getPacket, if_neg (by omega), if_neg hcount, hslot]
    simp only [h.idle, Nat.not_le.mpr hlong, packetizeFragmentationUnitPacket, startFuA, hmin, hmore, hleft,
      if_true, if_false, fragment, fuHeaderOf, reduceCtorEq, Bool.false_eq_true]
  · exact ⟨h.count, h.slots, rfl, rfl, by omega⟩

/-- The rest of the unit is longer than the buffer: a fragment in its middle. -/
theorem getPacket_middle (h : Fragmenting ctx nalu sent nalus) (h3 : 3 ≤ size) (h32 : size < 2 ^ 32)
    (hlong : size - 2 < nalu.length - 1 - sent) : ∃ ctx', getPacket ctx size =
      (.ok, ctx', fragment (nalu.headD 0) false false ((nalu.drop (1 + sent)).take (size - 2))) ∧
        Fragmenting ctx' nalu (sent + (size - 2)) nalus := by
  have hslot : ctx.naluArray ctx.tailIndex = some nalu := h.slots 0 nalu rfl
  have hcount : ctx.naluCount ≠ 0 := by rw [h.count]; exact Nat.succ_ne_zero _
  have hmin : min (sizeSub size fuAHeaderSize) (nalu.length - 1 - sent) = size - 2 := by
    rw [sizeSub_of_le (Nat.le_of_succ_le h3) h32]
    exact Nat.min_eq_left (Nat.le_of_lt hlong)
  have hmore : nalu.length - 1 - sent ≠ size - 2 := by omega
  have hleft : nalu.length - 1 - sent - (size - 2) ≠ 0 := by omega
  refine ⟨{ ctx with fuAPacketizationState :=
    ⟨nalu.headD 0, 1 + sent + (size - 2), nalu.length - 1 - sent - (size - 2)⟩ }, ?_, ?_⟩
  · rw [getPacket, if_neg (by omega), if_neg hcount, hslot]
    simp only [h.busy, packetizeFragmentationUnitPacket, h.state, hmin, hmore, hleft,
      if_true, if_false, fragment, fuHeaderOf, reduceCtorEq, Bool.false_eq_true]
  · refine ⟨h.count, h.slots, h.busy, ?_, by omega⟩
    show (⟨_, _, _⟩ : FuAPacketizationState) = _
    rw [Nat.add_assoc, Nat.sub_sub _ sent]

/-- The rest of the unit fits: the last fragment, and the next unit is up. -/
theorem getPacket_last (h : Fragmenting ctx nalu sent nalus) (h3 : 3 ≤ size) (h32 : size < 2 ^ 32)
    (hfit : nalu.length - 1 - sent ≤ size - 2) : ∃ ctx', getPacket ctx size =
      (.ok, ctx', fragment (nalu.headD 0) false true (nalu.drop (1 + sent))) ∧ Queued ctx' nalus := by
  have hslot : ctx.naluArray ctx.tailIndex = some nalu := h.slots 0 nalu rfl
  have hcount : ctx.naluCount ≠ 0 := by rw [h.count]; exact Nat.succ_ne_zero _
  have hmin : min (sizeSub size fuAHeaderSize) (nalu.length - 1 - sent) = nalu.length - 1 - sent := by
    rw [sizeSub_of_le (Nat.le_of_succ_le h3) h32]
    exact Nat.min_eq_right hfit
  have htake : (nalu.drop (1 + sent)).take (nalu.length - 1 - sent) = nalu.drop (1 + sent) :=
    List.take_of_length_le (by rw [List.length_drop]; omega)
  refine ⟨{ ctx with
    fuAPacketizationState := ⟨0, 0, 0⟩
    currentlyProcessingPacket := .none
    tailIndex := ctx.tailIndex + 1
    naluCount := ctx.naluCount - 1 }, ?_, ?_⟩
  · rw [getPacket, if_neg (by omega), if_neg hcount, hslot]
    simp only [h.busy, packetizeFragmentationUnitPacket, h.state, hmin, htake, Nat.sub_self,
      if_true, if_false, fragment, fuHeaderOf, reduceCtorEq, Bool.false_eq_true]
  · refine ⟨?_, slots_tail h.slots, rfl⟩
    show ctx.naluCount - 1 = _
    rw [h.count, Nat.add_sub_cancel]

/-! ### All payloads -/

/-- A call for each buffer size until one fails: the payloads, the last result and the context. -/
def drain : List ℕ → PacketizerContext → List H264Packet × H264Result × PacketizerContext
  | [], ctx => ([], .ok, ctx)
  | size :: sizes, ctx =>
    let r := getPacket ctx size
    if r.1 = .ok then
      let rest := drain sizes r.2.1
      (r.2.2 :: rest.1, rest.2)
    else ([], r.1, r.2.1)

theorem drain_ok {sizes : List ℕ} {ctx' : PacketizerContext} {packet : H264Packet}
    (h : getPacket ctx size = (.ok, ctx', packet)) :
    drain (size :: sizes) ctx = (packet :: (drain sizes ctx').1, (drain sizes ctx').2) := by
  rw [drain, h]
  rfl

/-- The buffers hold a fragment with at least one byte, and their sizes are sizes. -/
def Sizes (sizes : List ℕ) : Prop := ∀ size ∈ sizes, 3 ≤ size ∧ size < 2 ^ 32

instance (sizes : List ℕ) : Decidable (Sizes sizes) :=
  inferInstanceAs (Decidable (∀ size ∈ sizes, 3 ≤ size ∧ size < 2 ^ 32))

/-- The bytes of the units. -/
def bytes (nalus : List Nalu) : ℕ := (nalus.map List.length).sum

theorem fragments_cons {header : UInt8} {first : Bool} {chunk : List UInt8} {chunks : List (List UInt8)}
    (h : chunks ≠ []) : fragments header first (chunk :: chunks) =
      fragment header first false chunk :: fragments header false chunks := by
  cases chunks with
  | nil => exact absurd rfl h
  | cons c cs => rfl

theorem cons_drop_one (h : nalu ≠ []) : nalu.headD 0 :: nalu.drop 1 = nalu := by
  cases nalu with
  | nil => exact absurd rfl h
  | cons b bs => rfl

theorem take_drop_from (l : List UInt8) (k n : ℕ) : (l.drop k).take n ++ l.drop (k + n) = l.drop k := by
  rw [← List.drop_drop, List.take_append_drop]

/-- From either state all that waits goes out, when there are more buffers than bytes. -/
theorem drain_all {sizes : List ℕ} (hsizes : Sizes sizes) (hwell : ∀ nalu ∈ nalus, WellFormed nalu) :
    (∀ ctx, Queued ctx nalus → bytes nalus < sizes.length →
      (drain sizes ctx).2.1 = .noMorePackets ∧ Carries (drain sizes ctx).1 nalus) ∧
    (∀ ctx nalu sent, Fragmenting ctx nalu sent nalus →
      nalu.length - 1 - sent + bytes nalus < sizes.length →
      (drain sizes ctx).2.1 = .noMorePackets ∧ ∃ chunks packets, chunks ≠ [] ∧
        chunks.flatten = nalu.drop (1 + sent) ∧
        (drain sizes ctx).1 = fragments (nalu.headD 0) false chunks ++ packets ∧ Carries packets nalus) := by
  induction sizes generalizing nalus with
  | nil => exact ⟨fun _ _ h => absurd h (Nat.not_lt_zero _), fun _ _ _ _ h => absurd h (Nat.not_lt_zero _)⟩
  | cons size sizes ih =>
    obtain ⟨h3, h32⟩ := hsizes size List.mem_cons_self
    have hsizes' : Sizes sizes := fun s hs => hsizes s (List.mem_cons_of_mem _ hs)
    constructor
    · intro ctx h hmore
      cases nalus with
      | nil =>
        have hnone : (getPacket ctx size).1 = .noMorePackets := getPacket_none h (by omega)
        rw [drain, if_neg (by rw [hnone]; exact H264Result.noConfusion)]
        exact ⟨hnone, .nil⟩
      | cons nalu nalus =>
        have hn : WellFormed nalu := hwell nalu List.mem_cons_self
        have hwell' : ∀ n ∈ nalus, WellFormed n := fun n hm => hwell n (List.mem_cons_of_mem _ hm)
        have hlen : 0 < nalu.length := List.length_pos_iff.mpr hn.ne
        have hbytes : bytes (nalu :: nalus) = nalu.length + bytes nalus := rfl
        rw [hbytes, List.length_cons] at hmore
        rcases Nat.lt_or_ge size nalu.length with hlong | hfit
        · obtain ⟨ctx', hget, hctx'⟩ := getPacket_first h h3 h32 hlong
          obtain ⟨hend, chunks, packets, hne, hflat, hdrain, hcarries⟩ :=
            (ih hsizes' hwell').2 ctx' nalu (size - 2) hctx' (by omega)
          rw [drain_ok hget]
          refine ⟨hend, ?_⟩
          show Carries (fragment _ true false _ :: (drain sizes ctx').1) _
          have hunit : nalu.headD 0 :: ((nalu.drop 1).take (size - 2) :: chunks).flatten = nalu := by
            rw [List.flatten_cons, hflat, take_drop_from, cons_drop_one hn.ne]
          rw [hdrain, ← List.cons_append, ← fragments_cons hne]
          have hall : Carries
              (fragments (nalu.headD 0) true ((nalu.drop 1).take (size - 2) :: chunks) ++ packets)
              ((nalu.headD 0 :: ((nalu.drop 1).take (size - 2) :: chunks).flatten) :: nalus) :=
            .fuA hn.forbidden (List.cons_ne_nil _ _) hcarries
          rwa [hunit] at hall
        · rw [drain_ok (getPacket_single h (by omega) hfit)]
          obtain ⟨hend, hcarries⟩ := (ih hsizes' hwell').1 _ h.single (by omega)
          exact ⟨hend, .single hn hcarries⟩
    · intro ctx nalu sent h hmore
      rw [List.length_cons] at hmore
      have hleft := h.left
      rcases Nat.lt_or_ge (size - 2) (nalu.length - 1 - sent) with hlong | hfit
      · obtain ⟨ctx', hget, hctx'⟩ := getPacket_middle h h3 h32 hlong
        obtain ⟨hend, chunks, packets, hne, hflat, hdrain, hcarries⟩ :=
          (ih hsizes' hwell).2 ctx' nalu (sent + (size - 2)) hctx' (by omega)
        rw [drain_ok hget]
        refine ⟨hend, (nalu.drop (1 + sent)).take (size - 2) :: chunks, packets, List.cons_ne_nil _ _, ?_, ?_,
          hcarries⟩
        · rw [List.flatten_cons, hflat, ← Nat.add_assoc, take_drop_from]
        · rw [fragments_cons hne, List.cons_append, ← hdrain]
      · obtain ⟨ctx', hget, hctx'⟩ := getPacket_last h h3 h32 hfit
        obtain ⟨hend, hcarries⟩ := (ih hsizes' hwell).1 ctx' hctx' (by omega)
        rw [drain_ok hget]
        exact ⟨hend, [nalu.drop (1 + sent)], (drain sizes ctx').1, List.cons_ne_nil _ _,
          List.flatten_singleton, rfl, hcarries⟩

theorem fragment_length (header : UInt8) (first last : Bool) (chunk : List UInt8) :
    (fragment header first last chunk).length = chunk.length + 2 := rfl

/-- Each payload fits the buffer it was written to. -/
theorem drain_fits {sizes : List ℕ} (hsizes : Sizes sizes) :
    (∀ ctx nalus, Queued ctx nalus →
      List.Forall₂ (fun packet size => packet.length ≤ size) (drain sizes ctx).1
        (sizes.take (drain sizes ctx).1.length)) ∧
    (∀ ctx nalu sent nalus, Fragmenting ctx nalu sent nalus →
      List.Forall₂ (fun packet size => packet.length ≤ size) (drain sizes ctx).1
        (sizes.take (drain sizes ctx).1.length)) := by
  induction sizes with
  | nil => exact ⟨fun _ _ _ => .nil, fun _ _ _ _ _ => .nil⟩
  | cons size sizes ih =>
    obtain ⟨h3, h32⟩ := hsizes size List.mem_cons_self
    have hsizes' : Sizes sizes := fun s hs => hsizes s (List.mem_cons_of_mem _ hs)
    constructor
    · intro ctx nalus h
      cases nalus with
      | nil =>
        rw [drain, if_neg (by rw [getPacket_none h (by omega)]; exact H264Result.noConfusion)]
        exact .nil
      | cons nalu nalus =>
        rcases Nat.lt_or_ge size nalu.length with hlong | hfit
        · obtain ⟨ctx', hget, hctx'⟩ := getPacket_first h h3 h32 hlong
          rw [drain_ok hget]
          refine .cons ?_ ((ih hsizes').2 _ _ _ _ hctx')
          rw [fragment_length, List.length_take]
          omega
        · rw [drain_ok (getPacket_single h (by omega) hfit)]
          exact .cons hfit ((ih hsizes').1 _ _ h.single)
    · intro ctx nalu sent nalus h
      rcases Nat.lt_or_ge (size - 2) (nalu.length - 1 - sent) with hlong | hfit
      · obtain ⟨ctx', hget, hctx'⟩ := getPacket_middle h h3 h32 hlong
        rw [drain_ok hget]
        refine .cons ?_ ((ih hsizes').2 _ _ _ _ hctx')
        rw [fragment_length, List.length_take]
        omega
      · obtain ⟨ctx', hget, hctx'⟩ := getPacket_last h h3 h32 hfit
        rw [drain_ok hget]
        refine .cons ?_ ((ih hsizes').1 _ _ hctx')
        rw [fragment_length, List.length_drop]
        omega

end IotcRa8p1.Media.H264
