import IotcRa8p1.Lib.BitField

/-!
# RTP packets (`rtp_api.c`)

`rtpSerialize` writes a packet into a buffer, `rtpDeSerialize` reads one from the bytes received.  Words go out
and come in big-endian on either kind of machine (`rtp_endianness.c`), here as `beBytes` and `beNat`.

The three bits of `flags` are fields of their own, the extension's with the extension.  The payload's padding
is part of the payload when a packet is written and cut off when it is read.
-/

namespace IotcRa8p1.Media.Rtp

open ByteMem

/-- `RtpResult_t` -/
inductive RtpResult where
  | ok
  | badParam
  | outOfMemory
  | wrongVersion
  | malformedPacket
  deriving DecidableEq, Repr

/-- `RtpHeaderExtension_t`; `payload` is what `pExtensionPayload` points to. -/
structure RtpHeaderExtension where
  extensionProfile : UInt16
  extensionPayloadLength : UInt16
  payload : List UInt32
  deriving DecidableEq, Repr

/-- `RtpHeader_t`; `csrc` is what `pCsrc` points to. -/
structure RtpHeader where
  padding : Bool
  marker : Bool
  extension : Option RtpHeaderExtension
  csrcCount : UInt8
  payloadType : UInt8
  sequenceNumber : UInt16
  timestamp : UInt32
  ssrc : UInt32
  csrc : List UInt32
  deriving DecidableEq, Repr

/-- `RtpPacket_t`; `payload` is `none` for a NULL `pPayload`. -/
structure RtpPacket where
  header : RtpHeader
  payload : Option (List UInt8)
  payloadLength : ℕ
  deriving DecidableEq, Repr

abbrev rtpHeaderMinLength : ℕ := 12
abbrev sizeMax : ℕ := 2 ^ 32 - 1

/-- `RTP_WRITE_UINT32` -/
def word (w : UInt32) : List UInt8 := beBytes 4 w.toNat

/-- `RTP_READ_UINT32` at an index -/
def readUint32 (bs : List UInt8) (i : ℕ) : UInt32 := UInt32.ofNat (beNat ((bs.drop i).take 4))

/-- The bytes of the extension behind the CSRCs, when the flag is set. -/
def extensionLength : Option RtpHeaderExtension → ℕ
  | none => 0
  | some e => 4 + e.extensionPayloadLength.toNat * 4

/-- `CalculateSerializedPacketLength` -/
def calculateSerializedPacketLength (p : RtpPacket) : Option ℕ :=
  if p.header.csrcCount > 15 then none
  else
    let headerLength := rtpHeaderMinLength + p.header.csrcCount.toNat * 4 + extensionLength p.header.extension
    if sizeMax - headerLength < p.payloadLength then none else some (headerLength + p.payloadLength)

/-- `( ( uint32_t ) value << LOCATION ) & MASK` -/
def putField (value location mask : UInt32) : UInt32 := (value <<< location) &&& mask

/-- `( word & MASK ) >> LOCATION` -/
def getField (word mask location : UInt32) : UInt32 := (word &&& mask) >>> location

/-- `1 << LOCATION` when the flag is set -/
def putFlag (flag : Bool) (location : UInt32) : UInt32 := if flag then 1 <<< location else 0

/-- The first word of the header. -/
def firstWord (h : RtpHeader) : UInt32 :=
  ((2 : UInt32) <<< 30) ||| putFlag h.padding 29 ||| putFlag h.extension.isSome 28 |||
    putField h.csrcCount.toUInt32 24 0x0F000000 ||| putFlag h.marker 23 |||
    putField h.payloadType.toUInt32 16 0x007F0000 ||| putField h.sequenceNumber.toUInt32 0 0x0000FFFF

/-- The word in front of the extension's payload. -/
def extensionHeader (e : RtpHeaderExtension) : UInt32 :=
  putField e.extensionProfile.toUInt32 16 0xFFFF0000 ||| putField e.extensionPayloadLength.toUInt32 0 0x0000FFFF

/-- The words `pWords[0]` to `pWords[n - 1]`. -/
def words (pWords : List UInt32) (n : ℕ) : List UInt8 := (List.range n).flatMap fun i => word (pWords.getD i 0)

def extensionBytes : Option RtpHeaderExtension → List UInt8
  | none => []
  | some e => word (extensionHeader e) ++ words e.payload e.extensionPayloadLength.toNat

/-- All that stands before the payload. -/
def headerBytes (h : RtpHeader) : List UInt8 :=
  word (firstWord h) ++ word h.timestamp ++ word h.ssrc ++ words h.csrc h.csrcCount.toNat ++
    extensionBytes h.extension

/-- The first bytes of the buffer replaced. -/
def overwrite (buffer bytes : List UInt8) : List UInt8 := bytes ++ buffer.drop bytes.length

/-- The number of padding bytes that the last byte of the payload gives. -/
def numPaddingOctets (payload : List UInt8) : ℕ := (payload.getLastD 0).toNat

/-- `Rtp_Serialize`: its result, `*pLength` and the buffer; without a buffer only the length is found. -/
def rtpSerialize (p : RtpPacket) (pBuffer : Option (List UInt8)) (pLength : ℕ) :
    RtpResult × ℕ × Option (List UInt8) :=
  match calculateSerializedPacketLength p, pBuffer with
  | none, _ => (.malformedPacket, pLength, pBuffer)
  | some serializedPacketLength, none => (.ok, serializedPacketLength, none)
  | some serializedPacketLength, some buffer =>
    if pLength < serializedPacketLength then (.outOfMemory, pLength, pBuffer)
    else
      match p.payload with
      | some pPayload =>
        let payload := pPayload.take p.payloadLength
        if 0 < p.payloadLength ∧ p.header.padding ∧
            (numPaddingOctets payload = 0 ∨ p.payloadLength < numPaddingOctets payload) then
          (.malformedPacket, serializedPacketLength, some (overwrite buffer (headerBytes p.header)))
        else (.ok, serializedPacketLength, some (overwrite buffer (headerBytes p.header ++ payload)))
      | none => (.ok, serializedPacketLength, some (overwrite buffer (headerBytes p.header)))

/-! ### Reading -/

/-- The header of a packet up to its CSRCs, and the index behind it. -/
def readFixed (bs : List UInt8) : RtpHeader × ℕ :=
  let firstWord := readUint32 bs 0
  let csrcCount := (getField firstWord 0x0F000000 24).toUInt8
  ({ padding := firstWord &&& 0x20000000 ≠ 0
     marker := firstWord &&& 0x00800000 ≠ 0
     extension := none
     csrcCount := csrcCount
     payloadType := (getField firstWord 0x007F0000 16).toUInt8
     sequenceNumber := (getField firstWord 0x0000FFFF 0).toUInt16
     timestamp := readUint32 bs 4
     ssrc := readUint32 bs 8
     csrc := (List.range csrcCount.toNat).map fun i => readUint32 bs (12 + 4 * i) },
    12 + 4 * csrcCount.toNat)

/-- The extension at an index, and the index behind it. -/
def readExtension (bs : List UInt8) (i : ℕ) : Option (RtpHeaderExtension × ℕ) :=
  if 4 ≤ bs.length - i then
    let extensionHeader := readUint32 bs i
    let extensionProfile := (getField extensionHeader 0xFFFF0000 16).toUInt16
    let extensionPayloadLength := (getField extensionHeader 0x0000FFFF 0).toUInt16
    if extensionPayloadLength.toNat * 4 ≤ bs.length - (i + 4) then
      some (⟨extensionProfile, extensionPayloadLength,
        (List.range extensionPayloadLength.toNat).map fun k => readUint32 bs (i + 4 + 4 * k)⟩,
        i + 4 + 4 * extensionPayloadLength.toNat)
    else none
  else none

/-- The payload from an index to the end, less its padding. -/
def readPayload (bs : List UInt8) (header : RtpHeader) (i : ℕ) : Except RtpResult RtpPacket :=
  if i < bs.length then
    let payload := bs.drop i
    if header.padding then
      if 0 < numPaddingOctets payload ∧ numPaddingOctets payload ≤ payload.length then
        .ok ⟨header, some (payload.take (payload.length - numPaddingOctets payload)),
          payload.length - numPaddingOctets payload⟩
      else .error .malformedPacket
    else .ok ⟨header, some payload, payload.length⟩
  else .ok ⟨header, none, 0⟩

/-- `Rtp_DeSerialize` -/
def rtpDeSerialize (bs : List UInt8) : Except RtpResult RtpPacket :=
  if bs.length < rtpHeaderMinLength then .error .badParam
  else if getField (readUint32 bs 0) 0xC0000000 30 ≠ 2 then .error .wrongVersion
  else
    let (header, i) := readFixed bs
    if header.csrcCount.toNat * 4 ≤ bs.length - 12 then
      if readUint32 bs 0 &&& 0x10000000 ≠ 0 then
        match readExtension bs i with
        | some (e, i) => readPayload bs { header with extension := some e } i
        | none => .error .malformedPacket
      else readPayload bs header i
    else .error .malformedPacket

end IotcRa8p1.Media.Rtp
