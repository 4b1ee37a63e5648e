import IotcRa8p1.Lib.Annexb
import Mathlib.Algebra.Group.Nat.Defs
import Mathlib.Logic.Function.Basic

/-!
# H.264 units in RTP payloads (`h264_packetizer.c`, `h264_depacketizer.c`)

The packetizer cuts a frame into NAL units and gives them out as payloads: a unit that fits is one payload,
a longer one goes in fragments (FU-A).  The depacketizer takes payloads, single units, fragments and
aggregates (STAP-A), and gives the units back.

A unit or a payload is the bytes between its pointer and its length; `none` is a NULL pointer.  The arrays are
functions of the slot, and `overrun` remembers a slot written behind the end.
-/

namespace IotcRa8p1.Media.H264

/-- `H264Result_t` -/
inductive H264Result where
  | ok
  | badParam
  | outOfMemory
  | noMorePackets
  | noMoreNalus
  | noMoreFrames
  | malformedPacket
  | unsupportedPacket
  deriving DecidableEq, Repr

/-- `H264PacketType_t`, as far as `currentlyProcessingPacket` takes it. -/
inductive H264PacketType where
  | none
  | fuA
  deriving DecidableEq, Repr

/-- `Nalu_t` -/
abbrev Nalu := List UInt8

/-- `H264Packet_t` -/
abbrev H264Packet := List UInt8

abbrev naluHeaderSize : ℕ := 1
abbrev naluHeaderTypeMask : UInt8 := 0x1F
abbrev naluHeaderNriMask : UInt8 := 0x60
abbrev singleNaluPacketTypeStart : UInt8 := 1
abbrev singleNaluPacketTypeEnd : UInt8 := 23
abbrev stapAPacketType : UInt8 := 24
abbrev fuAPacketType : UInt8 := 28
abbrev fuAHeaderSize : ℕ := 2
abbrev fuAHeaderSBitMask : UInt8 := 0x80
abbrev fuAHeaderEBitMask : UInt8 := 0x40
abbrev stapAHeaderSize : ℕ := 1
abbrev stapANaluSize : ℕ := 2

/-- `size_t` subtraction -/
def sizeSub (a b : ℕ) : ℕ := (a + 2 ^ 32 - b) % 2 ^ 32

theorem sizeSub_of_le {a b : ℕ} (hle : b ≤ a) (hlt : a < 2 ^ 32) : sizeSub a b = a - b := by
  rw [sizeSub, Nat.add_comm, Nat.add_sub_assoc hle, Nat.add_mod_left]
  exact Nat.mod_eq_of_lt (by omega)

/-! ### The packetizer -/

/-- `FuAPacketizationState_t` -/
structure FuAPacketizationState where
  naluHeader : UInt8
  naluDataIndex : ℕ
  remainingNaluLength : ℕ
  deriving DecidableEq, Repr

/-- `H264PacketizerContext_t` -/
structure PacketizerContext where
  naluArray : ℕ → Option Nalu
  naluArrayLength : ℕ
  headIndex : ℕ
  tailIndex : ℕ
  naluCount : ℕ
  currentlyProcessingPacket : H264PacketType
  fuAPacketizationState : FuAPacketizationState
  overrun : Bool

/-- `H264Packetizer_Init`, on an array of any content. -/
def packetizerInit (naluArray : ℕ → Option Nalu) (naluArrayLength : ℕ) : Option PacketizerContext :=
  if naluArrayLength = 0 then none
  else some ⟨naluArray, naluArrayLength, 0, 0, 0, .none, ⟨0, 0, 0⟩, false⟩

/-- `H264Packetizer_AddNalu` -/
def addNalu (ctx : PacketizerContext) : Option Nalu → H264Result × PacketizerContext
  | none => (.badParam, ctx)
  | some nalu =>
    if nalu.length < naluHeaderSize then (.malformedPacket, ctx)
    else if ctx.naluCount ≥ ctx.naluArrayLength then (.outOfMemory, ctx)
    else (.ok, { ctx with
      naluArray := Function.update ctx.naluArray ctx.headIndex (some nalu)
      headIndex := ctx.headIndex + 1
      naluCount := ctx.naluCount + 1
      overrun := ctx.overrun || decide (ctx.naluArrayLength ≤ ctx.headIndex) })

/-- `firstStartCode`, `naluStartIndex` and the context in the loop of `H264Packetizer_AddFrame`. -/
structure AddFrameState where
  firstStartCode : Bool
  naluStartIndex : ℕ
  ctx : PacketizerContext

/-- A start code of `size` bytes at `currentIndex`: the unit before it goes to the array. -/
def atStartCode (frame : List UInt8) (currentIndex size : ℕ) (s : AddFrameState) :
    H264Result × AddFrameState :=
  let r : H264Result × PacketizerContext :=
    if s.firstStartCode then (.ok, s.ctx)
    else addNalu s.ctx (some ((frame.drop s.naluStartIndex).take (currentIndex - s.naluStartIndex)))
  (r.1, ⟨false, currentIndex + size, r.2⟩)

/-- The loop of `H264Packetizer_AddFrame`. -/
def addFrameLoop (frame : List UInt8) (currentIndex : ℕ) (s : AddFrameState) : H264Result × AddFrameState :=
  if _h : currentIndex < frame.length then
    match Annexb.codeAt (frame.drop currentIndex) with
    | some code =>
      have := code.bytes_pos
      match atStartCode frame currentIndex code.bytes.length s with
      | (.ok, s') => addFrameLoop frame (currentIndex + code.bytes.length) s'
      | (result, s') => (result, s')
    | none => addFrameLoop frame (currentIndex + 1) s
  else (.ok, s)
termination_by frame.length - currentIndex

/-- `H264Packetizer_AddFrame` -/
def addFrame (ctx : PacketizerContext) : Option (List UInt8) → H264Result × PacketizerContext
  | none => (.badParam, ctx)
  | some frame =>
    if frame.length = 0 then (.badParam, ctx)
    else
      match addFrameLoop frame 0 ⟨true, 0, ctx⟩ with
      | (.ok, s) =>
        if s.naluStartIndex > 0 then addNalu s.ctx (some (frame.drop s.naluStartIndex))
        else (.malformedPacket, s.ctx)
      | (result, s) => (result, s.ctx)

/-- `PacketizeSingleNaluPacket` -/
def packetizeSingleNaluPacket (ctx : PacketizerContext) (nalu : Nalu) : PacketizerContext × H264Packet :=
  ({ ctx with tailIndex := ctx.tailIndex + 1, naluCount := ctx.naluCount - 1 }, nalu)

/-- The state at the first fragment of a unit. -/
def startFuA (ctx : PacketizerContext) (nalu : Nalu) : PacketizerContext :=
  { ctx with
    currentlyProcessingPacket := .fuA
    fuAPacketizationState := ⟨nalu.headD 0, 1, nalu.length - 1⟩ }

/-- `PacketizeFragmentationUnitPacket` -/
def packetizeFragmentationUnitPacket (ctx : PacketizerContext) (nalu : Nalu) (packetDataLength : ℕ) :
    PacketizerContext × H264Packet :=
  let first := ctx.currentlyProcessingPacket = .none
  let ctx := if first then startFuA ctx nalu else ctx
  let fuA := ctx.fuAPacketizationState
  let maxNaluDataLengthToSend := sizeSub packetDataLength fuAHeaderSize
  let naluDataLengthToSend := min maxNaluDataLengthToSend fuA.remainingNaluLength
  let fuHeader : UInt8 := (if first then fuAHeaderSBitMask else 0) |||
    (if fuA.remainingNaluLength = naluDataLengthToSend then fuAHeaderEBitMask else 0)
  let packet := (fuAPacketType ||| fuA.naluHeader &&& naluHeaderNriMask) ::
    (fuHeader ||| fuA.naluHeader &&& naluHeaderTypeMask) ::
    (nalu.drop fuA.naluDataIndex).take naluDataLengthToSend
  let remaining := fuA.remainingNaluLength - naluDataLengthToSend
  if remaining = 0 then
    ({ ctx with
      fuAPacketizationState := ⟨0, 0, 0⟩
      currentlyProcessingPacket := .none
      tailIndex := ctx.tailIndex + 1
      naluCount := ctx.naluCount - 1 }, packet)
  else
    ({ ctx with
      fuAPacketizationState :=
        ⟨fuA.naluHeader, fuA.naluDataIndex + naluDataLengthToSend, remaining⟩ }, packet)

/-- `H264Packetizer_GetPacket` for a buffer of `packetDataLength` bytes; the packet is the bytes written. -/
def getPacket (ctx : PacketizerContext) (packetDataLength : ℕ) :
    H264Result × PacketizerContext × H264Packet :=
  if packetDataLength = 0 then (.badParam, ctx, [])
  else if ctx.naluCount = 0 then (.noMorePackets, ctx, [])
  else
    match ctx.naluArray ctx.tailIndex with
    | none => (.badParam, ctx, [])
    | some nalu =>
      if ctx.currentlyProcessingPacket = .fuA then
        (.ok, packetizeFragmentationUnitPacket ctx nalu packetDataLength)
      else if nalu.length ≤ packetDataLength then (.ok, packetizeSingleNaluPacket ctx nalu)
      else (.ok, packetizeFragmentationUnitPacket ctx nalu packetDataLength)

/-! ### The depacketizer -/

/-- `H264DepacketizerContext_t` -/
structure DepacketizerContext where
  packetsArray : ℕ → Option H264Packet
  packetsArrayLength : ℕ
  headIndex : ℕ
  tailIndex : ℕ
  packetCount : ℕ
  curPacketIndex : ℕ
  overrun : Bool

/-- `H264Depacketizer_Init` -/
def depacketizerInit (packetsArray : ℕ → Option H264Packet) (packetsArrayLength : ℕ) :
    Option DepacketizerContext :=
  if packetsArrayLength = 0 then none
  else some ⟨packetsArray, packetsArrayLength, 0, 0, 0, 0, false⟩

/-- `H264Depacketizer_AddPacket` -/
def addPacket (ctx : DepacketizerContext) : Option H264Packet → H264Result × DepacketizerContext
  | none => (.badParam, ctx)
  | some packet =>
    if packet.length = 0 then (.badParam, ctx)
    else if ctx.packetCount ≥ ctx.packetsArrayLength then (.outOfMemory, ctx)
    else (.ok, { ctx with
      packetsArray := Function.update ctx.packetsArray ctx.headIndex (some packet)
      headIndex := ctx.headIndex + 1
      packetCount := ctx.packetCount + 1
      overrun := ctx.overrun || decide (ctx.packetsArrayLength ≤ ctx.headIndex) })

/-- What a call leaves behind: its result, the context, the bytes written and `naluDataLength`. -/
structure NaluOut where
  result : H264Result
  ctx : DepacketizerContext
  written : List UInt8
  naluDataLength : ℕ

/-- The next packet. -/
def DepacketizerContext.next (ctx : DepacketizerContext) : DepacketizerContext :=
  { ctx with tailIndex := ctx.tailIndex + 1, packetCount := ctx.packetCount - 1 }

/-- `DepacketizeSingleNaluPacket` -/
def depacketizeSingleNaluPacket (ctx : DepacketizerContext) (packet : H264Packet) (naluDataLength : ℕ) :
    NaluOut :=
  if packet.length ≤ naluDataLength then ⟨.ok, ctx.next, packet, packet.length⟩
  else ⟨.outOfMemory, ctx, [], naluDataLength⟩

/-- The byte of a unit that its fragment carries no copy of. -/
def naluHeaderOf (fuIndicator fuHeader : UInt8) : UInt8 :=
  fuIndicator &&& naluHeaderNriMask ||| fuHeader &&& naluHeaderTypeMask

/-- The loop of `DepacketizeFragmentationUnitPacket`, with the last FU header and the bytes written. -/
def depacketizeFragments (ctx : DepacketizerContext) (naluDataLength : ℕ) (fuHeader : UInt8)
    (written : List UInt8) : NaluOut :=
  if _h : ctx.packetCount > 0 ∧ fuHeader &&& fuAHeaderEBitMask = 0 then
    match ctx.packetsArray ctx.tailIndex with
    | some (fuIndicator :: fuHeader :: payload) =>
      if fuIndicator &&& naluHeaderTypeMask ≠ fuAPacketType then
        ⟨.malformedPacket, ctx, written, written.length⟩
      else
        let first := fuHeader &&& fuAHeaderSBitMask ≠ 0
        if first ∧ naluDataLength < written.length + naluHeaderSize then
          ⟨.outOfMemory, ctx, written, written.length⟩
        else
          let written := if first then written ++ [naluHeaderOf fuIndicator fuHeader] else written
          if payload.length ≤ naluDataLength ∧ written.length ≤ naluDataLength - payload.length then
            depacketizeFragments ctx.next naluDataLength fuHeader (written ++ payload)
          else ⟨.outOfMemory, ctx, written, written.length⟩
    | _ => ⟨.malformedPacket, ctx, written, written.length⟩
  else ⟨.ok, ctx, written, written.length⟩
termination_by ctx.packetCount
decreasing_by
  show ctx.packetCount - 1 < ctx.packetCount
  omega

/-- `DepacketizeFragmentationUnitPacket` -/
def depacketizeFragmentationUnitPacket (ctx : DepacketizerContext) (naluDataLength : ℕ) : NaluOut :=
  depacketizeFragments ctx naluDataLength 0 []

/-- Past the aggregate, to the next packet, once it is read to its end. -/
def DepacketizerContext.finishStapA (ctx : DepacketizerContext) (curPacketLength : ℕ) : DepacketizerContext :=
  if ctx.curPacketIndex ≥ curPacketLength then { ctx.next with curPacketIndex := 0 } else ctx

/-- `DepacketizeAggregationPacket` -/
def depacketizeAggregationPacket (ctx : DepacketizerContext) (packet : H264Packet) (naluDataLength : ℕ) :
    NaluOut :=
  let index := if ctx.curPacketIndex = 0 then stapAHeaderSize else ctx.curPacketIndex
  if packet.length ≥ stapANaluSize ∧ index ≤ packet.length - stapANaluSize then
    let naluLength := (packet.getD index 0).toNat * 256 + (packet.getD (index + 1) 0).toNat
    let index := index + stapANaluSize
    let ctx' := { ctx with curPacketIndex := index + naluLength }.finishStapA packet.length
    if naluLength ≤ packet.length ∧ index ≤ packet.length - naluLength then
      if naluLength ≤ naluDataLength then
        ⟨.ok, ctx', (packet.drop index).take naluLength, naluLength⟩
      else ⟨.outOfMemory, ctx', [], naluLength⟩
    else ⟨.malformedPacket, ctx', [], naluDataLength⟩
  else
    ⟨.malformedPacket, { ctx with curPacketIndex := index }.finishStapA packet.length, [], naluDataLength⟩

/-- `H264Depacketizer_GetNalu` for a buffer of `naluDataLength` bytes. -/
def getNalu (ctx : DepacketizerContext) (naluDataLength : ℕ) : NaluOut :=
  if ctx.packetCount = 0 then ⟨.noMoreNalus, ctx, [], naluDataLength⟩
  else if ctx.tailIndex ≥ ctx.packetsArrayLength then ⟨.badParam, ctx, [], naluDataLength⟩
  else
    match ctx.packetsArray ctx.tailIndex with
    | none => ⟨.badParam, ctx, [], naluDataLength⟩
    | some packet =>
      let packetType := packet.headD 0 &&& naluHeaderTypeMask
      if singleNaluPacketTypeStart ≤ packetType ∧ packetType ≤ singleNaluPacketTypeEnd then
        depacketizeSingleNaluPacket ctx packet naluDataLength
      else if packetType = fuAPacketType then depacketizeFragmentationUnitPacket ctx naluDataLength
      else if packetType = stapAPacketType then depacketizeAggregationPacket ctx packet naluDataLength
      else ⟨.unsupportedPacket, ctx, [], naluDataLength⟩

/-- The loop of `H264Depacketizer_GetFrame`: the frame so far, each unit behind a start code. -/
def getFrameLoop (ctx : DepacketizerContext) (frameDataLength : ℕ) (frame : List UInt8) :
    H264Result × DepacketizerContext × List UInt8 :=
  if _h : frameDataLength - frame.length > Annexb.Code.four.bytes.length then
    let naluDataIndex := frame.length + Annexb.Code.four.bytes.length
    let out := getNalu ctx (frameDataLength - naluDataIndex)
    if out.result = .ok then
      getFrameLoop out.ctx frameDataLength (frame ++ (Annexb.Code.four.bytes ++ out.written))
    else (out.result, out.ctx, frame)
  else (.outOfMemory, ctx, frame)
termination_by frameDataLength - frame.length
decreasing_by
  have hpos := Annexb.Code.four.bytes_pos
  rw [List.length_append, List.length_append]
  omega

/-- `H264Depacketizer_GetFrame` for a buffer of `frameDataLength` bytes. -/
def getFrame (ctx : DepacketizerContext) (frameDataLength : ℕ) : H264Result × DepacketizerContext × List UInt8 :=
  if frameDataLength = 0 then (.badParam, ctx, [])
  else if ctx.packetCount = 0 then (.noMoreFrames, ctx, [])
  else
    match getFrameLoop ctx frameDataLength [] with
    | (.noMoreNalus, ctx, frame) => (.ok, ctx, frame)
    | r => r

/-- `H264Depacketizer_GetPacketProperties`: whether the packet starts and whether it ends a unit. -/
def getPacketProperties (packetData : H264Packet) : H264Result × Bool × Bool :=
  match packetData with
  | [] => (.badParam, false, false)
  | b :: rest =>
    let packetType := b &&& naluHeaderTypeMask
    if singleNaluPacketTypeStart ≤ packetType ∧ packetType ≤ singleNaluPacketTypeEnd then (.ok, true, false)
    else if packetType = fuAPacketType then
      match rest with
      | [] => (.malformedPacket, false, false)
      | fuHeader :: _ =>
        (.ok, decide (fuHeader &&& fuAHeaderSBitMask ≠ 0), decide (fuHeader &&& fuAHeaderEBitMask ≠ 0))
    else if packetType = stapAPacketType then (.ok, true, false)
    else (.unsupportedPacket, false, false)

end IotcRa8p1.Media.H264
