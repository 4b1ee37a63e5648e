import IotcRa8p1.Media.H264Payloads

/-!
# The depacketizer

`Yields` is the state of a depacketizer with units to give: whole payloads wait in its array, the first perhaps
an aggregate read half.  `getNalu_ok` and `getNalu_short` say what a call does there, and from them
`getFrame_eq` what the loop over all units does.
-/

namespace IotcRa8p1.Media.H264

/-- The payloads wait in the array. -/
structure Loaded (ctx : DepacketizerContext) (packets : List H264Packet) : Prop where
  count : ctx.packetCount = packets.length
  slots : ∀ i packet, packets[i]? = some packet → ctx.packetsArray (ctx.tailIndex + i) = some packet
  room : ctx.tailIndex + packets.length ≤ ctx.packetsArrayLength

/-- The units still to come. -/
inductive Yields (ctx : DepacketizerContext) : List Nalu → Prop
  | fresh {packets nalus} : Loaded ctx packets → ctx.curPacketIndex = 0 → Carries packets nalus →
      Yields ctx nalus
  | within {header done units packets nalus} :
      Loaded ctx ((header :: aggregate (done ++ units)) :: packets) →
      header &&& naluHeaderTypeMask = stapAPacketType → done ≠ [] → units ≠ [] →
      (∀ nalu ∈ units, nalu.length < 2 ^ 16) →
      ctx.curPacketIndex = stapAHeaderSize + (aggregate done).length → Carries packets nalus →
      Yields ctx (units ++ nalus)

variable {ctx : DepacketizerContext} {packet : H264Packet} {packets : List H264Packet} {nalu : Nalu}
  {nalus : List Nalu} {size : ℕ}

theorem Loaded.next (h : Loaded ctx (packet :: packets)) : Loaded ctx.next packets where
  count := by show ctx.packetCount - 1 = _; rw [h.count]; rfl
  slots i p hp := by
    show ctx.packetsArray (ctx.tailIndex + 1 + i) = some p
    rw [Nat.add_assoc, Nat.add_comm 1 i]
    exact h.slots (i + 1) p hp
  room := by
    have hroom := h.room
    rw [List.length_cons] at hroom
    show ctx.tailIndex + 1 + _ ≤ ctx.packetsArrayLength
    omega

theorem Loaded.seek (h : Loaded ctx packets) (i : ℕ) : Loaded { ctx with curPacketIndex := i } packets :=
  ⟨h.count, h.slots, h.room⟩

/-! ### The header bytes -/

theorem indicator_type (header : UInt8) :
    (fuAPacketType ||| header &&& naluHeaderNriMask) &&& naluHeaderTypeMask = fuAPacketType := by
  revert header
  exact ByteMem.forall_byte (by decide +kernel)

theorem naluHeaderOf_fragment (first last : Bool) (header : UInt8) (h : header &&& 0x80 = 0) :
    naluHeaderOf (fuAPacketType ||| header &&& naluHeaderNriMask) (fuHeaderOf first last header) = header := by
  revert header
  cases first <;> cases last <;> exact ByteMem.forall_byte (by decide +kernel)

theorem fuHeaderOf_start (first last : Bool) (header : UInt8) :
    fuHeaderOf first last header &&& fuAHeaderSBitMask ≠ 0 ↔ first = true := by
  revert header
  cases first <;> cases last <;> exact ByteMem.forall_byte (by decide +kernel)

theorem fuHeaderOf_end (first last : Bool) (header : UInt8) :
    fuHeaderOf first last header &&& fuAHeaderEBitMask = 0 ↔ last = false := by
  revert header
  cases first <;> cases last <;> exact ByteMem.forall_byte (by decide +kernel)

/-! ### Fragments -/

/-- The header in front of the first fragment. -/
def headerBytes (first : Bool) (header : UInt8) : List UInt8 := if first then [header] else []

variable {header fuHeader : UInt8} {first last : Bool} {chunk written : List UInt8}

theorem depacketizeFragments_step (h : Loaded ctx (fragment header first last chunk :: packets))
    (hheader : header &&& 0x80 = 0) (hend : fuHeader &&& fuAHeaderEBitMask = 0)
    (hfit : (written ++ headerBytes first header ++ chunk).length ≤ size) :
    depacketizeFragments ctx size fuHeader written =
      depacketizeFragments ctx.next size (fuHeaderOf first last header)
        (written ++ headerBytes first header ++ chunk) := by
  have hslot : ctx.packetsArray ctx.tailIndex = some (fragment header first last chunk) := h.slots 0 _ rfl
  have hcount : ctx.packetCount > 0 := by rw [h.count]; exact Nat.succ_pos _
  rw [depacketizeFragments, dif_pos ⟨hcount, hend⟩, hslot]
  cases first <;>
    simp only [headerBytes, List.length_append, List.length_singleton, List.length_nil, if_true, if_false,
      Bool.false_eq_true] at hfit <;>
    simp [fragment, indicator_type, fuHeaderOf_start, naluHeaderOf_fragment _ _ _ hheader, headerBytes] <;> grind

theorem depacketizeFragments_short (h : Loaded ctx (fragment header first last chunk :: packets))
    (hheader : header &&& 0x80 = 0) (hend : fuHeader &&& fuAHeaderEBitMask = 0)
    (hshort : size < (written ++ headerBytes first header ++ chunk).length) :
    (depacketizeFragments ctx size fuHeader written).result = .outOfMemory := by
  have hslot : ctx.packetsArray ctx.tailIndex = some (fragment header first last chunk) := h.slots 0 _ rfl
  have hcount : ctx.packetCount > 0 := by rw [h.count]; exact Nat.succ_pos _
  rw [depacketizeFragments, dif_pos ⟨hcount, hend⟩, hslot]
  cases first <;>
    simp only [headerBytes, List.length_append, List.length_singleton, List.length_nil, if_true, if_false,
      Bool.false_eq_true] at hshort <;>
    simp [fragment, indicator_type, fuHeaderOf_start, naluHeaderOf_fragment _ _ _ hheader] <;> grind

theorem depacketizeFragments_end (hend : fuHeader &&& fuAHeaderEBitMask ≠ 0) :
    depacketizeFragments ctx size fuHeader written = ⟨.ok, ctx, written, written.length⟩ := by
  rw [depacketizeFragments, dif_neg fun h => hend h.2]

theorem written_cons (written : List UInt8) (first : Bool) (header : UInt8) (chunk : List UInt8)
    (chunks : List (List UInt8)) : written ++ headerBytes first header ++ (chunk :: chunks).flatten =
      written ++ headerBytes first header ++ chunk ++ headerBytes false header ++ chunks.flatten := by
  show _ = written ++ headerBytes first header ++ chunk ++ [] ++ chunks.flatten
  rw [List.flatten_cons, List.append_nil, List.append_assoc _ chunk]

/-- All fragments of a unit: the unit is written when it fits, and its payloads are gone. -/
theorem depacketizeFragments_all {chunks : List (List UInt8)}
    (h : Loaded ctx (fragments header first chunks ++ packets)) (hne : chunks ≠ [])
    (hheader : header &&& 0x80 = 0) (hend : fuHeader &&& fuAHeaderEBitMask = 0)
    (hfit : (written ++ headerBytes first header ++ chunks.flatten).length ≤ size) :
    ∃ ctx', depacketizeFragments ctx size fuHeader written =
        ⟨.ok, ctx', written ++ headerBytes first header ++ chunks.flatten,
          (written ++ headerBytes first header ++ chunks.flatten).length⟩ ∧
      Loaded ctx' packets ∧ ctx'.curPacketIndex = ctx.curPacketIndex := by
  induction chunks generalizing ctx first fuHeader written with
  | nil => exact absurd rfl hne
  | cons chunk chunks ih =>
    by_cases hlast : chunks = []
    · subst hlast
      rw [List.flatten_singleton] at hfit ⊢
      rw [depacketizeFragments_step h hheader hend hfit,
        depacketizeFragments_end fun he => Bool.noConfusion ((fuHeaderOf_end _ _ _).mp he)]
      exact ⟨ctx.next, rfl, h.next, rfl⟩
    · rw [fragments_cons hlast, List.cons_append] at h
      rw [written_cons] at hfit ⊢
      have hfirst : (written ++ headerBytes first header ++ chunk).length ≤ size := by
        rw [List.append_assoc, List.length_append] at hfit
        omega
      obtain ⟨ctx', heq, hloaded, hcur⟩ := ih h.next hlast ((fuHeaderOf_end first false header).mpr rfl) hfit
      exact ⟨ctx', (depacketizeFragments_step h hheader hend hfirst).trans heq, hloaded, hcur⟩

theorem depacketizeFragments_all_short {chunks : List (List UInt8)}
    (h : Loaded ctx (fragments header first chunks ++ packets)) (hne : chunks ≠ [])
    (hheader : header &&& 0x80 = 0) (hend : fuHeader &&& fuAHeaderEBitMask = 0)
    (hshort : size < (written ++ headerBytes first header ++ chunks.flatten).length) :
    (depacketizeFragments ctx size fuHeader written).result = .outOfMemory := by
  induction chunks generalizing ctx first fuHeader written with
  | nil => exact absurd rfl hne
  | cons chunk chunks ih =>
    by_cases hlast : chunks = []
    · subst hlast
      rw [List.flatten_singleton] at hshort
      exact depacketizeFragments_short h hheader hend hshort
    · rw [fragments_cons hlast, List.cons_append] at h
      rcases Nat.lt_or_ge size (written ++ headerBytes first header ++ chunk).length with hlt | hge
      · exact depacketizeFragments_short h hheader hend hlt
      · rw [depacketizeFragments_step h hheader hend hge]
        apply ih h.next hlast ((fuHeaderOf_end first false header).mpr rfl)
        rwa [← written_cons]

/-! ### Aggregates -/

theorem aggregate_append (a b : List Nalu) : aggregate (a ++ b) = aggregate a ++ aggregate b := by
  induction a with
  | nil => rfl
  | cons nalu a ih =>
    show _ :: _ :: (nalu ++ aggregate (a ++ b)) = _ :: _ :: (nalu ++ aggregate a ++ aggregate b)
    rw [ih, List.append_assoc]

theorem aggregate_cons_length (nalu : Nalu) (units : List Nalu) :
    (aggregate (nalu :: units)).length = 2 + nalu.length + (aggregate units).length := by
  rw [aggregate, List.length_cons, List.length_cons, List.length_append]
  omega

/-- The two bytes in front of a unit are its length. -/
theorem length_bytes (h : nalu.length < 2 ^ 16) :
    (UInt8.ofNat (nalu.length / 256)).toNat * 256 + (UInt8.ofNat nalu.length).toNat = nalu.length := by
  rw [UInt8.toNat_ofNat', UInt8.toNat_ofNat']
  omega

/-- The context reads the aggregate behind the units `done`. -/
def Reads (ctx : DepacketizerContext) (done : List Nalu) : Prop :=
  (if ctx.curPacketIndex = 0 then stapAHeaderSize else ctx.curPacketIndex) =
    stapAHeaderSize + (aggregate done).length

/-- What reading one unit of an aggregate makes of the context. -/
def afterUnit (ctx : DepacketizerContext) (done : List Nalu) (nalu : Nalu) (units : List Nalu) :
    DepacketizerContext :=
  { ctx with curPacketIndex := stapAHeaderSize + (aggregate done).length + stapANaluSize + nalu.length }.finishStapA
    ((aggregate (done ++ nalu :: units)).length + 1)

theorem depacketizeAggregationPacket_eq {done units : List Nalu} (h : Reads ctx done)
    (hlen : nalu.length < 2 ^ 16) :
    depacketizeAggregationPacket ctx (header :: aggregate (done ++ nalu :: units)) size =
      if nalu.length ≤ size then ⟨.ok, afterUnit ctx done nalu units, nalu, nalu.length⟩
      else ⟨.outOfMemory, afterUnit ctx done nalu units, [], nalu.length⟩ := by
  have hpacket : header :: aggregate (done ++ nalu :: units) = header :: aggregate done ++
      (UInt8.ofNat (nalu.length / 256) :: UInt8.ofNat nalu.length :: (nalu ++ aggregate units)) := by
    rw [aggregate_append]
    rfl
  have hindex : stapAHeaderSize + (aggregate done).length = (header :: aggregate done).length :=
    Nat.add_comm _ _
  have hlength : (header :: aggregate (done ++ nalu :: units)).length =
      1 + (aggregate done).length + 2 + nalu.length + (aggregate units).length := by
    rw [List.length_cons, aggregate_append, List.length_append, aggregate_cons_length]
    omega
  have hhigh : (header :: aggregate (done ++ nalu :: units)).getD (stapAHeaderSize + (aggregate done).length) 0 =
      UInt8.ofNat (nalu.length / 256) := by
    rw [hpacket, hindex, List.getD_append_right _ _ _ _ (Nat.le_refl _), Nat.sub_self]
    rfl
  have hlow : (header :: aggregate (done ++ nalu :: units)).getD
      (stapAHeaderSize + (aggregate done).length + 1) 0 = UInt8.ofNat nalu.length := by
    rw [hpacket, hindex, List.getD_append_right _ _ _ _ (Nat.le_add_right _ 1), Nat.add_sub_cancel_left]
    rfl
  have hdata : ((header :: aggregate (done ++ nalu :: units)).drop
      (stapAHeaderSize + (aggregate done).length + stapANaluSize)).take nalu.length = nalu := by
    rw [hpacket, hindex, ← List.drop_drop, List.drop_left]
    exact List.take_left
  have hroom : (header :: aggregate (done ++ nalu :: units)).length ≥ stapANaluSize ∧
      stapAHeaderSize + (aggregate done).length ≤
        (header :: aggregate (done ++ nalu :: units)).length - stapANaluSize := by
    rw [hlength]
    exact ⟨by show 2 ≤ _; omega, by show 1 + _ ≤ _ - 2; omega⟩
  have hin : nalu.length ≤ (header :: aggregate (done ++ nalu :: units)).length ∧
      stapAHeaderSize + (aggregate done).length + stapANaluSize ≤
        (header :: aggregate (done ++ nalu :: units)).length - nalu.length := by
    rw [hlength]
    exact ⟨by omega, by show 1 + _ + 2 ≤ _; omega⟩
  rw [depacketizeAggregationPacket]
  simp only [show (if ctx.curPacketIndex = 0 then _ else _) = _ from h]
  rw [if_pos hroom, hhigh, hlow, length_bytes hlen, hdata, if_pos hin]
  rfl

theorem aggregate_eq_nil {units : List Nalu} : (aggregate units).length = 0 ↔ units = [] := by
  cases units with
  | nil => exact ⟨fun _ => rfl, fun _ => rfl⟩
  | cons nalu units =>
    rw [aggregate_cons_length]
    exact ⟨fun h => by omega, fun h => absurd h (List.cons_ne_nil _ _)⟩

/-- Behind a unit of an aggregate come the rest of the aggregate and the packets after it. -/
theorem afterUnit_yields {done units : List Nalu}
    (h : Loaded ctx ((header :: aggregate (done ++ nalu :: units)) :: packets))
    (htype : header &&& naluHeaderTypeMask = stapAPacketType) (hlen : ∀ n ∈ units, n.length < 2 ^ 16)
    (hcarries : Carries packets nalus) : Yields (afterUnit ctx done nalu units) (units ++ nalus) := by
  have hlength : (aggregate (done ++ nalu :: units)).length =
      (aggregate done).length + 2 + nalu.length + (aggregate units).length := by
    rw [aggregate_append, List.length_append, aggregate_cons_length]
    omega
  rw [afterUnit, DepacketizerContext.finishStapA, hlength]
  by_cases hunits : units = []
  · subst hunits
    rw [if_pos (by show 1 + _ + 2 + _ ≥ _ + 0 + 1; omega)]
    exact .fresh (h.next.seek 0) rfl hcarries
  · have hpos : (aggregate units).length ≠ 0 := fun h => hunits (aggregate_eq_nil.mp h)
    rw [if_neg (by show ¬ 1 + _ + 2 + _ ≥ _; omega)]
    have hsplit : done ++ nalu :: units = done ++ [nalu] ++ units := by rw [List.append_assoc]; rfl
    rw [hsplit] at h
    refine .within (h.seek _) htype (by simp) hunits hlen ?_ hcarries
    · rw [aggregate_append, List.length_append, aggregate_cons_length]
      show 1 + _ + 2 + _ = 1 + (_ + (2 + _ + 0))
      omega

/-! ### One unit -/

/-- Where the next unit is. -/
inductive Next (ctx : DepacketizerContext) (nalu : Nalu) (nalus : List Nalu) : Prop
  | single {packets : List H264Packet} : Loaded ctx (nalu :: packets) → ctx.curPacketIndex = 0 →
      WellFormed nalu → Carries packets nalus → Next ctx nalu nalus
  | fuA {header : UInt8} {chunks : List (List UInt8)} {packets : List H264Packet} :
      nalu = header :: chunks.flatten → header &&& 0x80 = 0 → chunks ≠ [] →
      Loaded ctx (fragments header true chunks ++ packets) → ctx.curPacketIndex = 0 →
      Carries packets nalus → Next ctx nalu nalus
  | stapA {header : UInt8} {done units rest : List Nalu} {packets : List H264Packet} : nalus = units ++ rest →
      header &&& naluHeaderTypeMask = stapAPacketType → nalu.length < 2 ^ 16 →
      (∀ n ∈ units, n.length < 2 ^ 16) →
      Loaded ctx ((header :: aggregate (done ++ nalu :: units)) :: packets) → Reads ctx done →
      Carries packets rest → Next ctx nalu nalus

theorem Yields.next (h : Yields ctx (nalu :: nalus)) : Next ctx nalu nalus := by
  generalize hall : nalu :: nalus = all at h
  cases h with
  | fresh hloaded hcur hcarries =>
    cases hcarries with
    | nil => exact absurd hall (List.cons_ne_nil _ _)
    | single hw hrest =>
      obtain ⟨rfl, rfl⟩ := List.cons.inj hall
      exact .single hloaded hcur hw hrest
    | fuA hheader hne hrest =>
      obtain ⟨hnalu, rfl⟩ := List.cons.inj hall
      exact .fuA hnalu hheader hne hloaded hcur hrest
    | @stapA header units packets rest htype hne hlen hrest =>
      cases units with
      | nil => exact absurd rfl hne
      | cons n units =>
        obtain ⟨rfl, rfl⟩ := List.cons.inj hall
        have hloaded' : Loaded ctx ((header :: aggregate ([] ++ nalu :: units)) :: packets) := hloaded
        have hreads : Reads ctx [] := if_pos hcur
        exact .stapA rfl htype (hlen _ List.mem_cons_self) (fun n hn => hlen n (List.mem_cons_of_mem _ hn))
          hloaded' hreads hrest
  | @within header done units packets rest hloaded htype hdone hne hlen hcur hrest =>
    cases units with
    | nil => exact absurd rfl hne
    | cons n units =>
      obtain ⟨rfl, rfl⟩ := List.cons.inj hall
      refine .stapA rfl htype (hlen _ List.mem_cons_self)
        (fun n hn => hlen n (List.mem_cons_of_mem _ hn)) hloaded ?_ hrest
      rw [Reads, hcur]
      exact if_neg (by show 1 + _ ≠ 0; omega)

theorem getNalu_loaded (h : Loaded ctx (packet :: packets)) (size : ℕ) :
    getNalu ctx size =
      if singleNaluPacketTypeStart ≤ packet.headD 0 &&& naluHeaderTypeMask ∧
          packet.headD 0 &&& naluHeaderTypeMask ≤ singleNaluPacketTypeEnd then
        depacketizeSingleNaluPacket ctx packet size
      else if packet.headD 0 &&& naluHeaderTypeMask = fuAPacketType then depacketizeFragments ctx size 0 []
      else if packet.headD 0 &&& naluHeaderTypeMask = stapAPacketType then
        depacketizeAggregationPacket ctx packet size
      else ⟨.unsupportedPacket, ctx, [], size⟩ := by
  have hslot : ctx.packetsArray ctx.tailIndex = some packet := h.slots 0 _ rfl
  have hcount : ctx.packetCount ≠ 0 := by rw [h.count]; exact Nat.succ_ne_zero _
  have hroom : ¬ ctx.tailIndex ≥ ctx.packetsArrayLength := by
    have := h.room
    rw [List.length_cons] at this
    omega
  rw [getNalu, if_neg hcount, if_neg hroom, hslot]
  rfl

theorem getNalu_fragments {chunks : List (List UInt8)}
    (h : Loaded ctx (fragments header true chunks ++ packets)) (hne : chunks ≠ []) (size : ℕ) :
    getNalu ctx size = depacketizeFragments ctx size 0 [] := by
  obtain ⟨last, chunk, rest, hrest⟩ : ∃ last chunk rest,
      fragments header true chunks ++ packets = fragment header true last chunk :: rest := by
    rcases chunks with _ | ⟨chunk, _ | ⟨c, cs⟩⟩
    · exact absurd rfl hne
    · exact ⟨true, chunk, packets, rfl⟩
    · exact ⟨false, chunk, _, rfl⟩
  rw [hrest] at h
  have htype : (fragment header true last chunk).headD 0 &&& naluHeaderTypeMask = fuAPacketType :=
    indicator_type header
  rw [getNalu_loaded h, htype]
  rfl

theorem getNalu_aggregate {body : List UInt8} (h : Loaded ctx ((header :: body) :: packets))
    (htype : header &&& naluHeaderTypeMask = stapAPacketType) (size : ℕ) :
    getNalu ctx size = depacketizeAggregationPacket ctx (header :: body) size := by
  have htype' : (header :: body).headD 0 &&& naluHeaderTypeMask = stapAPacketType := htype
  rw [getNalu_loaded h, htype']
  rfl

/-- The next unit, written as it was sent, when the buffer has room for it. -/
theorem getNalu_ok (h : Yields ctx (nalu :: nalus)) (hfit : nalu.length ≤ size) :
    ∃ ctx', getNalu ctx size = ⟨.ok, ctx', nalu, nalu.length⟩ ∧ Yields ctx' nalus := by
  cases h.next with
  | single hloaded hcur hw hrest =>
    refine ⟨ctx.next, ?_, .fresh hloaded.next hcur hrest⟩
    rw [getNalu_loaded hloaded, if_pos ⟨hw.start, hw.stop⟩]
    exact if_pos hfit
  | @fuA header chunks packets hnalu hheader hne hloaded hcur hrest =>
    have hall : [] ++ headerBytes true header ++ chunks.flatten = nalu := hnalu.symm
    obtain ⟨ctx', heq, hloaded', hcur'⟩ : ∃ ctx', depacketizeFragments ctx size 0 [] = _ ∧ _ :=
      depacketizeFragments_all hloaded hne hheader rfl (by rw [hall]; exact hfit)
    rw [hall] at heq
    exact ⟨ctx', (getNalu_fragments hloaded hne size).trans heq, .fresh hloaded' (hcur'.trans hcur) hrest⟩
  | @stapA header done units packets rest hnalus htype hlen hlens hloaded hreads hrest =>
    subst hnalus
    refine ⟨afterUnit ctx done nalu units, ?_, afterUnit_yields hloaded htype hlens hrest⟩
    rw [getNalu_aggregate hloaded htype, depacketizeAggregationPacket_eq hreads hlen, if_pos hfit]

theorem getNalu_short (h : Yields ctx (nalu :: nalus)) (hshort : size < nalu.length) :
    (getNalu ctx size).result = .outOfMemory := by
  cases h.next with
  | single hloaded hcur hw hrest =>
    rw [getNalu_loaded hloaded, if_pos ⟨hw.start, hw.stop⟩, depacketizeSingleNaluPacket,
      if_neg (Nat.not_le.mpr hshort)]
  | @fuA header chunks packets hnalu hheader hne hloaded hcur hrest =>
    have hall : [] ++ headerBytes true header ++ chunks.flatten = nalu := hnalu.symm
    rw [getNalu_fragments hloaded hne]
    exact depacketizeFragments_all_short hloaded hne hheader rfl (by rw [hall]; exact hshort)
  | @stapA header done units packets rest hnalus htype hlen hlens hloaded hreads hrest =>
    rw [getNalu_aggregate hloaded htype, depacketizeAggregationPacket_eq hreads hlen,
      if_neg (Nat.not_le.mpr hshort)]

theorem fragments_ne_nil {chunks : List (List UInt8)} (h : chunks ≠ []) (header : UInt8) (first : Bool) :
    fragments header first chunks ≠ [] := by
  rcases chunks with _ | ⟨chunk, _ | ⟨c, cs⟩⟩
  · exact absurd rfl h
  · exact List.cons_ne_nil _ _
  · exact List.cons_ne_nil _ _

theorem fragments_mem_ne_nil {chunks : List (List UInt8)} (h : packet ∈ fragments header first chunks) :
    packet ≠ [] := by
  induction chunks generalizing first with
  | nil => exact absurd h List.not_mem_nil
  | cons chunk chunks ih =>
    by_cases hlast : chunks = []
    · subst hlast
      rw [List.mem_singleton.mp h]
      exact List.cons_ne_nil _ _
    · rw [fragments_cons hlast] at h
      rcases List.mem_cons.mp h with rfl | h
      · exact List.cons_ne_nil _ _
      · exact ih h

theorem Carries.eq_nil (h : Carries packets nalus) (hnil : nalus = []) : packets = [] := by
  cases h with
  | nil => rfl
  | single => exact absurd hnil (List.cons_ne_nil _ _)
  | fuA => exact absurd hnil (List.cons_ne_nil _ _)
  | stapA _ hne => exact absurd (List.append_eq_nil_iff.mp hnil).1 hne

/-- No payloads carry no units. -/
theorem Carries.units_nil (h : Carries packets nalus) (hnil : packets = []) : nalus = [] := by
  cases h with
  | nil => rfl
  | single => exact absurd hnil (List.cons_ne_nil _ _)
  | fuA _ hne => exact absurd (List.append_eq_nil_iff.mp hnil).1 (fragments_ne_nil hne _ _)
  | stapA => exact absurd hnil (List.cons_ne_nil _ _)

/-- A fragment says whether it is the first and whether it is the last one of its unit. -/
theorem getPacketProperties_fragment (header : UInt8) (first last : Bool) (chunk : List UInt8) :
    getPacketProperties (fragment header first last chunk) = (.ok, first, last) := by
  have hstart : decide (fuHeaderOf first last header &&& fuAHeaderSBitMask ≠ 0) = first :=
    Bool.eq_iff_iff.mpr (decide_eq_true_iff.trans (fuHeaderOf_start first last header))
  have hend : decide (fuHeaderOf first last header &&& fuAHeaderEBitMask ≠ 0) = last := by
    cases last with
    | false => exact decide_eq_false (not_not.mpr ((fuHeaderOf_end first false header).mpr rfl))
    | true => exact decide_eq_true fun h => nomatch (fuHeaderOf_end first true header).mp h
  rw [fragment, getPacketProperties, indicator_type, if_neg (by decide), if_pos rfl, hstart, hend]

/-- The first payload of any units starts one. -/
theorem Carries.starts (h : Carries (packet :: packets) nalus) :
    ∃ last, getPacketProperties packet = (.ok, true, last) := by
  generalize hall : packet :: packets = all at h
  cases h with
  | nil => contradiction
  | single hwell =>
    obtain ⟨rfl, -⟩ := List.cons.inj hall
    obtain ⟨b, rest, rfl⟩ := List.exists_cons_of_ne_nil hwell.ne
    exact ⟨false, if_pos ⟨hwell.start, hwell.stop⟩⟩
  | @fuA header chunks _ _ _ hne =>
    rcases chunks with _ | ⟨chunk, _ | ⟨c, cs⟩⟩
    · exact absurd rfl hne
    · obtain ⟨rfl, -⟩ := List.cons.inj hall
      exact ⟨true, getPacketProperties_fragment header true true chunk⟩
    · obtain ⟨rfl, -⟩ := List.cons.inj hall
      exact ⟨false, getPacketProperties_fragment header true false chunk⟩
  | @stapA header units _ _ hheader =>
    obtain ⟨rfl, -⟩ := List.cons.inj hall
    refine ⟨false, ?_⟩
    simp only [getPacketProperties, hheader]
    rw [if_neg (by decide), if_neg (by decide), if_pos trivial]

theorem Yields.count_ne (h : Yields ctx nalus) (hne : nalus ≠ []) : ctx.packetCount ≠ 0 := by
  cases nalus with
  | nil => exact absurd rfl hne
  | cons nalu nalus =>
    cases h.next with
    | single hloaded => rw [hloaded.count]; exact Nat.succ_ne_zero _
    | @fuA header chunks packets _ _ hchunks hloaded =>
      rw [hloaded.count, List.length_append]
      have hpos := List.length_pos_iff.mpr (fragments_ne_nil hchunks header true)
      omega
    | stapA _ _ _ _ hloaded => rw [hloaded.count]; exact Nat.succ_ne_zero _

theorem getNalu_none (h : Yields ctx []) (size : ℕ) : (getNalu ctx size).result = .noMoreNalus := by
  generalize hnil : [] = nalus at h
  cases h with
  | fresh hloaded _ hcarries =>
    have hcount : ctx.packetCount = 0 := by rw [hloaded.count, hcarries.eq_nil hnil.symm]; rfl
    rw [getNalu, if_pos hcount]
  | within _ _ _ hne => exact absurd (List.append_eq_nil_iff.mp hnil.symm).1 hne

/-! ### The whole frame -/

/-- The units as a byte stream, each behind the start code of four bytes. -/
def annexb (nalus : List Nalu) : List UInt8 := Annexb.join (nalus.map (Prod.mk .four))

theorem annexb_cons (nalu : Nalu) (nalus : List Nalu) :
    annexb (nalu :: nalus) = Annexb.Code.four.bytes ++ nalu ++ annexb nalus :=
  (List.append_assoc _ _ _).symm

theorem getFrameLoop_eq (h : Yields ctx nalus) (size : ℕ) (frame : List UInt8) :
    if frame.length + (annexb nalus).length + 4 < size then
      ∃ ctx', getFrameLoop ctx size frame = (.noMoreNalus, ctx', frame ++ annexb nalus)
    else (getFrameLoop ctx size frame).1 = .outOfMemory := by
  induction nalus generalizing ctx frame with
  | nil =>
    show if frame.length + 0 + 4 < size then _ else _
    split_ifs with hroom
    · have hcode : size - frame.length > Annexb.Code.four.bytes.length := by show _ > 4; omega
      have hend := getNalu_none h (size - (frame.length + Annexb.Code.four.bytes.length))
      rw [getFrameLoop, dif_pos hcode, if_neg (by rw [hend]; exact H264Result.noConfusion), hend]
      exact ⟨_, congrArg (fun f => (_, _, f)) (List.append_nil frame).symm⟩
    · have hcode : ¬ size - frame.length > Annexb.Code.four.bytes.length := by show ¬ _ > 4; omega
      rw [getFrameLoop, dif_neg hcode]
  | cons nalu nalus ih =>
    have hlength : (annexb (nalu :: nalus)).length = 4 + nalu.length + (annexb nalus).length := by
      rw [annexb_cons, List.length_append, List.length_append]
      rfl
    rw [hlength]
    by_cases hcode : size - frame.length > Annexb.Code.four.bytes.length
    · have hcode4 : size - frame.length > 4 := hcode
      rw [getFrameLoop, dif_pos hcode]
      dsimp only
      rcases Nat.lt_or_ge (size - (frame.length + Annexb.Code.four.bytes.length)) nalu.length with hshort | hfit
      · have hshort4 : size - (frame.length + 4) < nalu.length := hshort
        have hres := getNalu_short h hshort
        rw [if_neg (by omega), if_neg (by rw [hres]; exact H264Result.noConfusion)]
        exact hres
      · obtain ⟨ctx', heq, hctx'⟩ := getNalu_ok h hfit
        have hframe : frame ++ annexb (nalu :: nalus) =
            frame ++ (Annexb.Code.four.bytes ++ nalu) ++ annexb nalus := by
          rw [annexb_cons, List.append_assoc frame]
        have hframeLength : (frame ++ (Annexb.Code.four.bytes ++ nalu)).length = frame.length + (4 + nalu.length) := by
          rw [List.length_append, List.length_append]
          rfl
        have hrec := ih hctx' (frame ++ (Annexb.Code.four.bytes ++ nalu))
        rw [hframeLength] at hrec
        rw [heq, hframe, show frame.length + (4 + nalu.length + (annexb nalus).length) + 4 =
          frame.length + (4 + nalu.length) + (annexb nalus).length + 4 by omega]
        exact hrec
    · have hcode4 : ¬ size - frame.length > 4 := hcode
      rw [if_neg (by omega), getFrameLoop, dif_neg hcode]

/-- The frame is written when the buffer has five bytes more than it: with less the last look for a unit
already fails. -/
theorem getFrame_eq (h : Yields ctx nalus) (hne : nalus ≠ []) (size : ℕ) :
    if (annexb nalus).length + 4 < size then
      ∃ ctx', getFrame ctx size = (.ok, ctx', annexb nalus)
    else size ≠ 0 → (getFrame ctx size).1 = .outOfMemory := by
  have hcount := h.count_ne hne
  have hloop := getFrameLoop_eq h size []
  rw [show ([] : List UInt8).length = 0 from rfl, Nat.zero_add] at hloop
  split_ifs at hloop ⊢ with hroom
  · obtain ⟨ctx', heq⟩ := hloop
    rw [getFrame, if_neg (by omega), if_neg hcount, heq]
    exact ⟨ctx', rfl⟩
  · intro hsize
    rw [getFrame, if_neg hsize, if_neg hcount]
    split
    · next heq => exact absurd (hloop.symm.trans (congrArg Prod.fst heq)) H264Result.noConfusion
    · exact hloop

end IotcRa8p1.Media.H264
