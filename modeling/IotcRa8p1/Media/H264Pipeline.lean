import IotcRa8p1.Media.H264Frames

/-!
# A frame through the packetizer and the depacketizer

`addFrame_iff`: which frames a new packetizer takes, and the units its array then holds.  `frame_roundtrip`: the
payloads of such a frame, loaded into a new depacketizer, are the frame again, its start codes all of four bytes.
-/

namespace IotcRa8p1.Media.H264

open Annexb (parse join NoCode Parted Separable)

/-- Appending to an array whose first slots hold the items. -/
theorem slots_append {α : Type*} {array : ℕ → Option α} {items : List α}
    (h : ∀ i a, items[i]? = some a → array i = some a) (x : α) (i : ℕ) (a : α)
    (ha : (items ++ [x])[i]? = some a) : Function.update array items.length (some x) i = some a := by
  rcases Nat.lt_or_ge i items.length with hlt | hge
  · rw [Function.update_of_ne (Nat.ne_of_lt hlt)]
    rw [List.getElem?_append_left hlt] at ha
    exact h i a ha
  · have hi : i = items.length := by
      have hlt := (List.getElem?_eq_some_iff.mp ha).1
      rw [List.length_append, List.length_singleton] at hlt
      omega
    subst hi
    rw [List.getElem?_concat_length] at ha
    rw [Function.update_self, Option.some.inj ha]

/-! ### The array of a new packetizer -/

/-- Units added to a packetizer that gave none out. -/
structure Stored (ctx : PacketizerContext) (nalus : List Nalu) : Prop extends Queued ctx nalus where
  head : ctx.headIndex = nalus.length
  tail : ctx.tailIndex = 0
  inside : ctx.overrun = false

variable {ctx : PacketizerContext} {nalu : Nalu} {nalus added : List Nalu} {cap : ℕ}

theorem packetizerInit_stored {array : ℕ → Option Nalu} (h : packetizerInit array cap = some ctx) :
    Stored ctx [] ∧ ctx.naluArrayLength = cap := by
  rw [packetizerInit] at h
  split_ifs at h
  obtain rfl := Option.some.inj h
  exact ⟨⟨⟨rfl, nofun, rfl⟩, rfl, rfl, rfl⟩, rfl⟩

/-- A unit with a byte goes in while a slot is free. -/
theorem addNalu_stored (h : Stored ctx nalus) (hne : nalu ≠ []) (hroom : nalus.length < ctx.naluArrayLength) :
    (addNalu ctx (some nalu)).1 = .ok ∧ Stored (addNalu ctx (some nalu)).2 (nalus ++ [nalu]) ∧
      (addNalu ctx (some nalu)).2.naluArrayLength = ctx.naluArrayLength := by
  have hlen : ¬ nalu.length < naluHeaderSize := Nat.not_lt.mpr (List.length_pos_iff.mpr hne)
  have hcount : ¬ ctx.naluCount ≥ ctx.naluArrayLength := by rw [h.count]; omega
  rw [addNalu, if_neg hlen, if_neg hcount]
  refine ⟨rfl, ⟨⟨?_, ?_, h.idle⟩, ?_, h.tail, ?_⟩, rfl⟩
  · show ctx.naluCount + 1 = _
    rw [h.count, List.length_append, List.length_singleton]
  · intro i n hn
    show Function.update ctx.naluArray ctx.headIndex (some nalu) (ctx.tailIndex + i) = some n
    rw [h.tail, Nat.zero_add, h.head]
    refine slots_append (fun i n hn => ?_) nalu i n hn
    have hslot := h.slots i n hn
    rwa [h.tail, Nat.zero_add] at hslot
  · show ctx.headIndex + 1 = _
    rw [h.head, List.length_append, List.length_singleton]
  · show (ctx.overrun || decide (ctx.naluArrayLength ≤ ctx.headIndex)) = false
    rw [h.inside, h.head, decide_eq_false (by omega)]
    rfl

theorem addNalu_refused (h : Stored ctx nalus) (hbad : nalu = [] ∨ ctx.naluArrayLength ≤ nalus.length) :
    (addNalu ctx (some nalu)).1 ≠ .ok := by
  rw [addNalu]
  split_ifs with hlen hcount
  · exact H264Result.noConfusion
  · exact H264Result.noConfusion
  · rw [h.count] at hcount
    rcases hbad with rfl | hfull
    · exact absurd (Nat.zero_lt_one) hlen
    · exact absurd hfull hcount

theorem addNalus_stored (h : Stored ctx nalus) (hne : ∀ n ∈ added, n ≠ [])
    (hroom : nalus.length + added.length ≤ ctx.naluArrayLength) :
    (addNalus ctx added).1 = .ok ∧ Stored (addNalus ctx added).2 (nalus ++ added) := by
  induction added generalizing ctx nalus with
  | nil =>
    rw [List.append_nil]
    exact ⟨rfl, h⟩
  | cons n added ih =>
    rw [List.length_cons] at hroom
    obtain ⟨hok, hstored, hlength⟩ := addNalu_stored h (hne n List.mem_cons_self) (by omega)
    rw [addNalus_ok added hok]
    have hrest := ih hstored (fun m hm => hne m (List.mem_cons_of_mem _ hm))
      (by rw [hlength, List.length_append, List.length_singleton]; omega)
    rwa [List.append_assoc] at hrest

theorem addNalus_accepts (h : Stored ctx nalus) (hok : (addNalus ctx added).1 = .ok) :
    (∀ n ∈ added, n ≠ []) ∧ (added = [] ∨ nalus.length + added.length ≤ ctx.naluArrayLength) := by
  induction added generalizing ctx nalus with
  | nil => exact ⟨nofun, .inl rfl⟩
  | cons n added ih =>
    have hgood : n ≠ [] ∧ nalus.length < ctx.naluArrayLength := by
      by_contra hbad
      have hrefused : (addNalu ctx (some n)).1 ≠ .ok := addNalu_refused h (by grind)
      rw [addNalus_fail added hrefused] at hok
      exact hrefused hok
    obtain ⟨hadd, hstored, hlength⟩ := addNalu_stored h hgood.1 hgood.2
    rw [addNalus_ok added hadd] at hok
    obtain ⟨hne, hroom⟩ := ih hstored hok
    refine ⟨fun m hm => ?_, .inr ?_⟩
    · rcases List.mem_cons.mp hm with rfl | hm
      · exact hgood.1
      · exact hne m hm
    · rw [hlength, List.length_append, List.length_singleton] at hroom
      rw [List.length_cons]
      rcases hroom with rfl | hroom
      · rw [List.length_nil]
        omega
      · omega

/-- The frame is units of at least one byte behind start codes, not more of them than slots, and perhaps bytes
before the first code. -/
structure Framed (frame : List UInt8) (lead : List UInt8) (units : List (Annexb.Code × Nalu)) (cap : ℕ) : Prop where
  frame_eq : frame = lead ++ join units
  noCode : NoCode lead
  parted : Parted lead units
  separable : Separable units
  units_ne : units ≠ []
  ne : ∀ u ∈ units, u.2 ≠ []
  fits : units.length ≤ cap

instance (frame lead : List UInt8) (units : List (Annexb.Code × Nalu)) (cap : ℕ) :
    Decidable (Framed frame lead units cap) :=
  decidable_of_iff (frame = lead ++ join units ∧ NoCode lead ∧ Parted lead units ∧ Separable units ∧
      units ≠ [] ∧ (∀ u ∈ units, u.2 ≠ []) ∧ units.length ≤ cap)
    ⟨fun ⟨h1, h2, h3, h4, h5, h6, h7⟩ => ⟨h1, h2, h3, h4, h5, h6, h7⟩,
      fun ⟨h1, h2, h3, h4, h5, h6, h7⟩ => ⟨h1, h2, h3, h4, h5, h6, h7⟩⟩

theorem Framed.parse {frame lead : List UInt8} {units : List (Annexb.Code × Nalu)}
    (h : Framed frame lead units cap) : Annexb.parse frame = (lead, units.map Prod.snd) := by
  rw [h.frame_eq]
  exact Annexb.parse_join_from h.noCode h.parted (Annexb.parse_join h.separable)

theorem Framed.frame_ne {frame lead : List UInt8} {units : List (Annexb.Code × Nalu)}
    (h : Framed frame lead units cap) : frame ≠ [] := by
  intro hnil
  have hparse := h.parse
  rw [hnil, Annexb.parse_nil] at hparse
  exact h.units_ne (List.map_eq_nil_iff.mp (congrArg Prod.snd hparse).symm)

theorem addFrame_framed {frame lead : List UInt8} {units : List (Annexb.Code × Nalu)}
    (hstored : Stored ctx []) (h : Framed frame lead units ctx.naluArrayLength) :
    (addFrame ctx (some frame)).1 = .ok ∧ Stored (addFrame ctx (some frame)).2 (units.map Prod.snd) := by
  have hne : units.map Prod.snd ≠ [] := fun hnil => h.units_ne (List.map_eq_nil_iff.mp hnil)
  rw [addFrame_eq ctx h.frame_ne, h.parse, if_neg hne]
  refine addNalus_stored hstored (fun n hn => ?_) ?_
  · obtain ⟨u, hu, rfl⟩ := List.mem_map.mp hn
    exact h.ne u hu
  · rw [List.length_map, List.length_nil, Nat.zero_add]
    exact h.fits

theorem framed_of_addFrame {frame : List UInt8} (hstored : Stored ctx [])
    (hok : (addFrame ctx (some frame)).1 = .ok) :
    ∃ lead units, Framed frame lead units ctx.naluArrayLength := by
  have hne : frame ≠ [] := by
    rintro rfl
    exact H264Result.noConfusion hok
  rw [addFrame_eq ctx hne] at hok
  split_ifs at hok with hnil
  obtain ⟨hunits, hroom⟩ := addNalus_accepts hstored hok
  obtain ⟨us, hus, hframe, hsep, hno, hparted⟩ := Annexb.join_parse frame
  refine ⟨(parse frame).1, us, hframe, hno, hparted, hsep, ?_, fun u hu => ?_, ?_⟩
  · rintro rfl
    exact hnil hus.symm
  · exact hunits u.2 (hus ▸ List.mem_map_of_mem hu)
  · have hlength : us.length = (parse frame).2.length := by rw [← hus, List.length_map]
    rcases hroom with hnil' | hroom
    · exact absurd hnil' hnil
    · rwa [List.length_nil, Nat.zero_add, ← hlength] at hroom

/-- A new packetizer takes exactly the framed streams, and then its array holds their units in order. -/
theorem addFrame_iff {array : ℕ → Option Nalu} (hinit : packetizerInit array cap = some ctx)
    (frame : List UInt8) :
    ((addFrame ctx (some frame)).1 = .ok ↔ ∃ lead units, Framed frame lead units cap) ∧
      ∀ lead units, Framed frame lead units cap →
        Stored (addFrame ctx (some frame)).2 (units.map Prod.snd) := by
  obtain ⟨hstored, rfl⟩ := packetizerInit_stored hinit
  exact ⟨⟨framed_of_addFrame hstored, fun ⟨_, _, h⟩ => (addFrame_framed hstored h).1⟩,
    fun _ _ h => (addFrame_framed hstored h).2⟩

/-- A packetizer with room for two units. -/
def twoSlots : PacketizerContext := ⟨fun _ => none, 2, 0, 0, 0, .none, ⟨0, 0, 0⟩, false⟩

theorem addFrame_iff_twoSlots :
    (addFrame twoSlots (some [9, 0, 0, 0, 1, 0x67, 0x42, 7, 0, 0, 1, 0x65])).1 = .ok :=
  (addFrame_iff (show packetizerInit (fun _ => none) 2 = some twoSlots from rfl) _).1.mpr
    ⟨[9], [(.four, [0x67, 0x42, 7]), (.three, [0x65])], by decide⟩

/-! ### The array of a new depacketizer -/

/-- One call of `H264Depacketizer_AddPacket` for each payload, until one fails. -/
def addPackets (ctx : DepacketizerContext) : List H264Packet → H264Result × DepacketizerContext
  | [] => (.ok, ctx)
  | packet :: packets =>
    match addPacket ctx (some packet) with
    | (.ok, ctx) => addPackets ctx packets
    | r => r

/-- Payloads added to a depacketizer that gave no unit out. -/
structure Filled (ctx : DepacketizerContext) (packets : List H264Packet) : Prop extends Loaded ctx packets where
  head : ctx.headIndex = packets.length
  tail : ctx.tailIndex = 0
  start : ctx.curPacketIndex = 0
  inside : ctx.overrun = false

theorem depacketizerInit_filled {array : ℕ → Option H264Packet} {d : DepacketizerContext}
    (h : depacketizerInit array cap = some d) : Filled d [] ∧ d.packetsArrayLength = cap := by
  rw [depacketizerInit] at h
  split_ifs at h
  obtain rfl := Option.some.inj h
  exact ⟨⟨⟨rfl, nofun, Nat.zero_le _⟩, rfl, rfl, rfl, rfl⟩, rfl⟩

variable {d : DepacketizerContext} {packet : H264Packet} {packets more : List H264Packet}

theorem addPacket_filled (h : Filled d packets) (hne : packet ≠ [])
    (hroom : packets.length < d.packetsArrayLength) :
    ∃ d', addPacket d (some packet) = (.ok, d') ∧ Filled d' (packets ++ [packet]) ∧
      d'.packetsArrayLength = d.packetsArrayLength := by
  have hlen : packet.length ≠ 0 := fun hzero => hne (List.length_eq_zero_iff.mp hzero)
  have hcount : ¬ d.packetCount ≥ d.packetsArrayLength := by rw [h.count]; omega
  rw [addPacket, if_neg hlen, if_neg hcount]
  refine ⟨_, rfl, ⟨⟨?_, ?_, ?_⟩, ?_, h.tail, h.start, ?_⟩, rfl⟩
  · show d.packetCount + 1 = _
    rw [h.count, List.length_append, List.length_singleton]
  · intro i p hp
    show Function.update d.packetsArray d.headIndex (some packet) (d.tailIndex + i) = some p
    rw [h.tail, Nat.zero_add, h.head]
    refine slots_append (fun i p hp => ?_) packet i p hp
    have hslot := h.slots i p hp
    rwa [h.tail, Nat.zero_add] at hslot
  · show d.tailIndex + _ ≤ d.packetsArrayLength
    rw [h.tail, List.length_append, List.length_singleton]
    omega
  · show d.headIndex + 1 = _
    rw [h.head, List.length_append, List.length_singleton]
  · show (d.overrun || decide (d.packetsArrayLength ≤ d.headIndex)) = false
    rw [h.inside, h.head, decide_eq_false (by omega)]
    rfl

theorem addPackets_filled (h : Filled d packets) (hne : ∀ p ∈ more, p ≠ [])
    (hroom : packets.length + more.length ≤ d.packetsArrayLength) :
    (addPackets d more).1 = .ok ∧ Filled (addPackets d more).2 (packets ++ more) := by
  induction more generalizing d packets with
  | nil =>
    rw [List.append_nil]
    exact ⟨rfl, h⟩
  | cons p more ih =>
    rw [List.length_cons] at hroom
    obtain ⟨d', hadd, hfilled, hlength⟩ := addPacket_filled h (hne p List.mem_cons_self) (by omega)
    have hrest := ih hfilled (fun q hq => hne q (List.mem_cons_of_mem _ hq))
      (by rw [hlength, List.length_append, List.length_singleton]; omega)
    rw [List.append_assoc] at hrest
    rw [addPackets, hadd]
    exact hrest

theorem Carries.ne_nil (h : Carries packets nalus) : ∀ p ∈ packets, p ≠ [] := by
  induction h with
  | nil => exact nofun
  | single hw _ ih =>
    intro p hp
    rcases List.mem_cons.mp hp with rfl | hp
    · exact hw.ne
    · exact ih p hp
  | @fuA header chunks packets nalus _ _ _ ih =>
    intro p hp
    rcases List.mem_append.mp hp with hp | hp
    · exact fragments_mem_ne_nil hp
    · exact ih p hp
  | stapA _ _ _ _ ih =>
    intro p hp
    rcases List.mem_cons.mp hp with rfl | hp
    · exact List.cons_ne_nil _ _
    · exact ih p hp

/-! ### There and back -/

/-- A frame of well-formed units goes through: for buffers of any sizes the payloads fit them and end when the
units do, and a depacketizer that has a slot for each gives the units back as one stream; that is the frame
itself when all its start codes have four bytes. -/
theorem frame_roundtrip {array : ℕ → Option Nalu} {slots : ℕ → Option H264Packet} {room : ℕ}
    {units : List (Annexb.Code × Nalu)} {sizes : List ℕ}
    (hinit : packetizerInit array cap = some ctx) (hframed : Framed (join units) [] units cap)
    (hwell : ∀ u ∈ units, WellFormed u.2) (hsizes : Sizes sizes)
    (hmore : bytes (units.map Prod.snd) < sizes.length) (hdinit : depacketizerInit slots room = some d) :
    let r := drain sizes (addFrame ctx (some (join units))).2
    r.2.1 = .noMorePackets ∧
      List.Forall₂ (fun packet size => packet.length ≤ size) r.1 (sizes.take r.1.length) ∧
      (r.1.length ≤ room → (addPackets d r.1).1 = .ok ∧
        ∀ size, (annexb (units.map Prod.snd)).length + 4 < size →
          ∃ d', getFrame (addPackets d r.1).2 size = (.ok, d', annexb (units.map Prod.snd))) ∧
      ((∀ u ∈ units, u.1 = .four) → annexb (units.map Prod.snd) = join units) := by
  obtain ⟨hnew, rfl⟩ := packetizerInit_stored hinit
  have hstored := (addFrame_framed hnew hframed).2
  have hwell' : ∀ n ∈ units.map Prod.snd, WellFormed n := by
    intro n hn
    obtain ⟨u, hu, rfl⟩ := List.mem_map.mp hn
    exact hwell u hu
  obtain ⟨hend, hcarries⟩ := (drain_all hsizes hwell').1 _ hstored.toQueued hmore
  refine ⟨hend, (drain_fits hsizes).1 _ _ hstored.toQueued, fun hroom => ?_, fun hfour => ?_⟩
  · obtain ⟨hfilled, hlength⟩ := depacketizerInit_filled hdinit
    obtain ⟨hok, hall⟩ := addPackets_filled hfilled hcarries.ne_nil
      (by rw [List.length_nil, Nat.zero_add, hlength]; exact hroom)
    refine ⟨hok, fun size hsize => ?_⟩
    have hne : units.map Prod.snd ≠ [] := fun hnil => hframed.units_ne (List.map_eq_nil_iff.mp hnil)
    have hget := getFrame_eq (.fresh hall.toLoaded hall.start hcarries) hne size
    rwa [if_pos hsize] at hget
  · have hmap : (units.map Prod.snd).map (Prod.mk Annexb.Code.four) = units := by
      rw [List.map_map]
      have hid : units.map (Prod.mk Annexb.Code.four ∘ Prod.snd) = units.map id :=
        List.map_congr_left fun u hu => Prod.ext (hfour u hu).symm rfl
      rw [hid, List.map_id]
    rw [annexb, hmap]

/-- A depacketizer with room for four payloads. -/
def fourSlots : DepacketizerContext := ⟨fun _ => none, 4, 0, 0, 0, 0, false⟩

theorem frame_roundtrip_twoSlots :
    let units : List (Annexb.Code × Nalu) := [(.four, [0x67, 0x42, 7]), (.four, [0x65, 1, 2, 3, 4])]
    let r := drain (List.replicate 9 4) (addFrame twoSlots (some (join units))).2
    r.1 = [[0x67, 0x42, 7], [0x7C, 0x85, 1, 2], [0x7C, 0x45, 3, 4]] ∧
      ∃ d', getFrame (addPackets fourSlots r.1).2 21 = (.ok, d', annexb (units.map Prod.snd)) :=
  ⟨by decide +kernel,
    ((frame_roundtrip (show packetizerInit (fun _ => none) 2 = some twoSlots from rfl) (by decide)
      (by decide) (by decide) (by decide)
      (show depacketizerInit (fun _ => none) 4 = some fourSlots from rfl)).2.2.1 (by decide +kernel)).2 21
        (by decide)⟩

/-- Payloads of any of the three kinds that carry units are one stream again, when the buffer has five bytes more
than it; with less the call runs out of memory. -/
theorem getFrame_carries {slots : ℕ → Option H264Packet} {room : ℕ} (hinit : depacketizerInit slots room = some d)
    (hcarries : Carries packets nalus) (hne : nalus ≠ []) (hroom : packets.length ≤ room) (size : ℕ)
    (hsize : size ≠ 0) :
    let r := getFrame (addPackets d packets).2 size
    (addPackets d packets).1 = .ok ∧
      (r.1 = .ok ↔ (annexb nalus).length + 4 < size) ∧ (r.1 = .ok → r.2.2 = annexb nalus) ∧
      (r.1 ≠ .ok → r.1 = .outOfMemory) := by
  obtain ⟨hfilled, hlength⟩ := depacketizerInit_filled hinit
  obtain ⟨hok, hall⟩ := addPackets_filled hfilled hcarries.ne_nil
    (by rw [List.length_nil, Nat.zero_add, hlength]; exact hroom)
  have hget := getFrame_eq (.fresh hall.toLoaded hall.start hcarries) hne size
  refine ⟨hok, ?_⟩
  split_ifs at hget with hfit
  · obtain ⟨d', hget⟩ := hget
    rw [hget]
    exact ⟨⟨fun _ => hfit, fun _ => rfl⟩, fun _ => rfl, fun h => absurd rfl h⟩
  · have hres := hget hsize
    have hbad : (getFrame (addPackets d packets).2 size).1 ≠ .ok := by
      rw [hres]
      exact H264Result.noConfusion
    exact ⟨⟨fun h => absurd h hbad, fun h => absurd h hfit⟩, fun h => absurd h hbad, fun _ => hres⟩

/-- An aggregate of two units behind a fragmented one. -/
theorem getFrame_carries_fourSlots :
    (getFrame (addPackets fourSlots [[0x7C, 0x85, 1], [0x7C, 0x45, 2], [0x78, 0, 2, 0x67, 9, 0, 1, 0x68]]).2
      23).1 = .ok :=
  have hone : Carries [[0x78, 0, 2, 0x67, 9, 0, 1, 0x68]] [[0x67, 9], [0x68]] :=
    @Carries.stapA 0x78 [[0x67, 9], [0x68]] [] [] rfl (by decide) (by decide) .nil
  have hall : Carries [[0x7C, 0x85, 1], [0x7C, 0x45, 2], [0x78, 0, 2, 0x67, 9, 0, 1, 0x68]]
      [[0x65, 1, 2], [0x67, 9], [0x68]] :=
    @Carries.fuA 0x65 [[1], [2]] _ _ (by decide) (by decide) hone
  ((getFrame_carries (show depacketizerInit (fun _ => none) 4 = some fourSlots from rfl) hall (by decide)
    (by decide) 23 (by decide)).2.1.mpr (by decide))

end IotcRa8p1.Media.H264
