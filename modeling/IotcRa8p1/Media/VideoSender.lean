import IotcRa8p1.Lib.Machine
import IotcRa8p1.Media.H264
import IotcRa8p1.Media.Rolling

/-!
# Sending video (`peer_connection_h264_helper.c`, `peer_connection_srtp.c`, `peer_connection_srtcp.c`)

`PeerConnectionH264Helper_WriteH264Frame` cuts a frame into payloads, makes an RTP packet of each, encrypts it,
keeps it for retransmission and sends it.  `ResendSrtpPacket` sends a packet again that the peer asks for.

A step is a turn of the writer's loop, with `senderMutex` held from one to the next, a whole retransmission, or a
part of `PeerConnectionSrtp_DeInit`: the SRTP session goes under a mutex of its own, so also between two turns.
A call that does not get `senderMutex` in time changes nothing and is no step.

`pvPortMalloc`, `srtp_protect`, the SRTP mutex and the network are choices of the action.  `packets` and `resent`
are not in the code: they remember what was handed to the network.  Left out are the statistics' clock, the
congestion control's list of packets and the pauses.
-/

namespace IotcRa8p1.Media.VideoSender

open H264 Rtp PktQueue Rolling

/-- `PEER_CONNECTION_SRTP_H264_MAX_NALUS_IN_A_FRAME` -/
abbrev maxNalusInAFrame : ℕ := 64

/-- `PEER_CONNECTION_SRTP_RTP_PAYLOAD_MAX_LENGTH` -/
abbrev rtpPayloadMaxLength : ℕ := 1200

/-- `PEER_CONNECTION_SRTP_RTP_PACKET_MAX_LENGTH` -/
abbrev rtpPacketMaxLength : ℕ := 1400

/-- `PEER_CONNECTION_SRTP_RTX_WRITE_RESERVED_BYTES` -/
abbrev rtxWriteReservedBytes : ℕ := 2

/-- What was negotiated: of `PeerConnectionRtpConfig_t` and the transceiver. -/
structure Config where
  twccId : UInt16
  videoCodecPayload : UInt32
  videoCodecRtxPayload : UInt32
  ssrc : UInt32
  rtxSsrc : UInt32
  deriving DecidableEq, Repr

/-- `bufferAfterEncrypt`: retransmissions repeat the encrypted packet, they have no payload type of their own. -/
def Config.bufferAfterEncrypt (cfg : Config) : Bool :=
  !decide (cfg.videoCodecRtxPayload ≠ 0 ∧ cfg.videoCodecRtxPayload ≠ cfg.videoCodecPayload)

/-- `maxSizePerPacket` of `PeerConnectionSrtp_Init`.  Its loop never resets the variable from one transceiver to
the next; the video transceiver is the first one that the application adds. -/
def Config.maxSizePerPacket (cfg : Config) : ℕ :=
  if cfg.bufferAfterEncrypt = true then rtpPacketMaxLength else rtpPayloadMaxLength

/-- A packet as it was first handed to the network; `secured` when there was an SRTP session. -/
structure Sent where
  rtp : RtpPacket
  bytes : List UInt8
  secured : Bool
  deriving DecidableEq, Repr

/-- The call of `PeerConnectionH264Helper_WriteH264Frame` that holds `senderMutex`. -/
structure Writer where
  h264 : PacketizerContext
  presentationUs : UInt64
  packetSent : UInt32
  bytesSent : UInt32

/-- Of `PeerConnectionSession_t` and the transceiver. -/
structure Sender where
  videoSequenceNumber : UInt16
  videoRtxSequenceNumber : UInt16
  twccSequence : UInt16
  txRollingBuffer : RollingBuffer
  heap : Heap
  srtpTransmitSession : Bool
  rtpPacketsTransmitted : UInt64
  rtpBytesTransmitted : UInt64
  writing : Option Writer
  result : PeerConnectionResult
  packets : List Sent
  resent : List (List UInt8)

/-- What the calls of a turn or of a retransmission give. -/
structure Env where
  /-- what the new block holds, `none` for a NULL pointer -/
  malloc : Option (ℕ → UInt8)
  /-- what stands in the buffer on the stack -/
  rtpBuffer : ℕ → UInt8
  /-- `srtpSessionMutex` is taken in time -/
  mutex : Bool
  /-- `srtp_protect`, when the result fits -/
  protect : List UInt8 → Option (List UInt8)
  /-- `IceController_SendToRemotePeer` -/
  send : Bool

/-! ### Packets -/

/-- `PEER_CONNECTION_SRTP_CONVERT_TIME_US_TO_RTP_TIMESTAMP` at the video clock rate -/
def rtpTimestamp (presentationUs : UInt64) : UInt32 := (presentationUs * 90000 / 1000000 &&& 0xFFFFFFFF).toUInt32

/-- `PEER_CONNECTION_SRTP_GET_TWCC_PAYLOAD` -/
def twccPayload (extId sequenceNum : UInt16) : UInt32 :=
  (extId.toUInt32 &&& 0xf) <<< 28 ||| (1 : UInt32) <<< 24 ||| sequenceNum.toUInt32 <<< 8

/-- The RTP packet for a payload. -/
def rtpPacketOf (cfg : Config) (s : Sender) (presentationUs : UInt64) (last : Bool) (payload : List UInt8) :
    RtpPacket where
  header :=
    { padding := false
      marker := last
      extension :=
        if 0 < cfg.twccId then some ⟨0xBEDE, 1, [twccPayload cfg.twccId s.twccSequence]⟩ else none
      csrcCount := 0
      payloadType := cfg.videoCodecPayload.toUInt8
      sequenceNumber := s.videoSequenceNumber
      timestamp := rtpTimestamp presentationUs
      ssrc := cfg.ssrc
      csrc := [] }
  payload := some payload
  payloadLength := payload.length

/-- `PeerConnectionSrtp_ConstructSrtpPacket`: its result, the buffer and `*pOutputSrtpPacketLength`.  Without a
session the packet stays as it is, and so does the length. -/
def constructSrtpPacket (srtpTransmitSession : Bool) (env : Env) (p : RtpPacket) (pOutputSrtpPacket : List UInt8)
    (outputSrtpPacketLength : ℕ) : PeerConnectionResult × List UInt8 × ℕ :=
  match rtpSerialize p (some pOutputSrtpPacket) outputSrtpPacketLength with
  | (.ok, rtpBufferLength, some buffer) =>
    if env.mutex = false then (.failTakeSrtpMutex, buffer, outputSrtpPacketLength)
    else if srtpTransmitSession = false then (.ok, buffer, outputSrtpPacketLength)
    else
      match env.protect (buffer.take rtpBufferLength) with
      | some srtp =>
        if srtp.length ≤ outputSrtpPacketLength then (.ok, overwrite buffer srtp, srtp.length)
        else (.failEncryptSrtpRtpPacket, buffer, outputSrtpPacketLength)
      | none => (.failEncryptSrtpRtpPacket, buffer, outputSrtpPacketLength)
  | (_, _, buffer) => (.failRtpSerialize, buffer.getD pOutputSrtpPacket, outputSrtpPacketLength)

/-- Bytes written at an index. -/
def writeAt (buffer : List UInt8) (i : ℕ) (bytes : List UInt8) : List UInt8 :=
  buffer.take i ++ bytes ++ buffer.drop (i + bytes.length)

/-! ### Writing a frame -/

variable (cfg : Config) (s : Sender) (env : Env)

/-- The end of the call. -/
def finish (w : Writer) (result : PeerConnectionResult) : Sender :=
  { s with
    rtpPacketsTransmitted := s.rtpPacketsTransmitted + w.packetSent.toUInt64
    rtpBytesTransmitted := s.rtpBytesTransmitted + w.bytesSent.toUInt64
    writing := none
    result := result }

/-- The block of a packet that is not kept. -/
def discard (p : ℕ) : Sender := { s with heap := discardRtpSequenceBuffer s.txRollingBuffer s.heap (some p) }

/-- The packet in block `p` is kept and sent. -/
def keepAndSend (w : Writer) (p : ℕ) (sent : Sent) : Sender :=
  match setPacket s.txRollingBuffer s.heap s.videoSequenceNumber p with
  | (result, txRollingBuffer, heap) =>
    let s := { s with
      txRollingBuffer := txRollingBuffer
      heap := heap
      videoSequenceNumber := s.videoSequenceNumber + 1 }
    if result = .ok then
      let s := { s with packets := s.packets ++ [sent] }
      if env.send = true then
        { s with
          heap := s.heap.touch p
          writing := some { w with
            packetSent := w.packetSent + 1
            bytesSent := w.bytesSent + UInt32.ofNat sent.rtp.payloadLength } }
      else finish s w .failIceControllerSendRtpPacket
    else finish (discard s p) w result

/-- The payload of a packet with block `p`: made into an RTP packet and encrypted. -/
def sendPayload (w : Writer) (p : ℕ) (payload : List UInt8) : Sender :=
  let rtp := rtpPacketOf cfg s w.presentationUs (w.h264.naluCount = 0) payload
  let s := { s with twccSequence := if 0 < cfg.twccId then s.twccSequence + 1 else s.twccSequence }
  let block := s.heap.packet p
  if cfg.bufferAfterEncrypt = true then
    match constructSrtpPacket s.srtpTransmitSession env rtp block.pPacketBuffer block.packetBufferLength with
    | (result, buffer, length) =>
      let s := { s with heap := s.heap.store p ⟨rtp, buffer, length⟩ }
      if result = .ok then keepAndSend s env w p ⟨rtp, buffer.take length, s.srtpTransmitSession⟩
      else finish (discard s p) w result
  else
    let s := { s with
      heap := s.heap.store p ⟨rtp, writeAt block.pPacketBuffer rtxWriteReservedBytes payload, payload.length⟩ }
    match constructSrtpPacket s.srtpTransmitSession env rtp (bytesOf env.rtpBuffer rtpPacketMaxLength)
      rtpPacketMaxLength with
    | (result, buffer, length) =>
      if result = .ok then keepAndSend s env w p ⟨rtp, buffer.take length, s.srtpTransmitSession⟩
      else finish (discard s p) w result

/-- `packetH264.packetDataLength` -/
def payloadRoom (block : RollingBufferPacket) : ℕ :=
  if cfg.bufferAfterEncrypt = true then rtpPayloadMaxLength
  else sizeSub block.packetBufferLength rtxWriteReservedBytes

/-- A turn of the loop. -/
def turn (w : Writer) : Sender :=
  match getRtpSequenceBuffer s.txRollingBuffer s.heap env.malloc with
  | (.ok, some p, heap) =>
    let s := { s with heap := heap }
    match getPacket w.h264 (payloadRoom cfg (heap.packet p)) with
    | (.ok, h264, payload) => sendPayload cfg s env { w with h264 := h264 } p payload
    | (.noMorePackets, _, _) => finish (discard s p) w .ok
    | (_, _, _) => finish (discard s p) w .failPacketizerGetPacket
  | (.ok, none, heap) => { s with heap := heap }
  | (result, _, heap) => finish { s with heap := heap } w result

/-- `PeerConnectionH264Helper_WriteH264Frame` up to its loop, with the array of units on the stack. -/
def writeH264Frame (naluArray : ℕ → Option Nalu) (pData : Option (List UInt8)) (presentationUs : UInt64) : Sender :=
  match packetizerInit naluArray maxNalusInAFrame with
  | none => { s with result := .failPacketizerInit }
  | some h264 =>
    match addFrame h264 pData with
    | (.ok, h264) => { s with writing := some ⟨h264, presentationUs, 0, 0⟩ }
    | (_, _) => { s with result := .failPacketizerAddFrame }

/-! ### Retransmission -/

/-- Bytes handed to the network once more. -/
def sendAgain (bytes : List UInt8) : Sender :=
  { s with
    resent := s.resent ++ [bytes]
    result := if env.send = true then .ok else .failIceControllerResendRtpPacket }

/-- The original sequence number in front of the payload. -/
def osn (rtpSeq : UInt16) : List UInt8 := ByteMem.beBytes 2 rtpSeq.toNat

/-- The RTX packet made of a packet kept before encryption. -/
def rtxBlock (rtpSeq : UInt16) (block : RollingBufferPacket) : RollingBufferPacket :=
  let buffer := writeAt block.pPacketBuffer 0 (osn rtpSeq)
  { block with
    rtpPacket :=
      { header :=
          { block.rtpPacket.header with
            sequenceNumber := s.videoRtxSequenceNumber
            ssrc := cfg.rtxSsrc
            payloadType := cfg.videoCodecRtxPayload.toUInt8 }
        payload := some (buffer.take (block.packetBufferLength + 2))
        payloadLength := block.packetBufferLength + 2 }
    pPacketBuffer := buffer }

/-- `ResendSrtpPacket` for a video transceiver -/
def resendSrtpPacket (rtpSeq : UInt16) : Sender :=
  match searchRtpSequenceBuffer s.txRollingBuffer s.heap rtpSeq with
  | (.ok, some p, heap) =>
    let block := heap.packet p
    if cfg.bufferAfterEncrypt = true then
      sendAgain { s with heap := heap } env (block.pPacketBuffer.take block.packetBufferLength)
    else
      let rtx := rtxBlock cfg s rtpSeq block
      let s := { s with heap := heap.store p rtx, videoRtxSequenceNumber := s.videoRtxSequenceNumber + 1 }
      match constructSrtpPacket s.srtpTransmitSession env rtx.rtpPacket (bytesOf env.rtpBuffer rtpPacketMaxLength)
        rtpPacketMaxLength with
      | (result, buffer, length) =>
        if result = .ok then sendAgain s env (buffer.take length) else { s with result := result }
  | (_, _, heap) => { s with heap := heap, result := .failRtpPacketNotFound }

/-! ### The machine -/

inductive Action where
  | writeFrame (naluArray : ℕ → Option Nalu) (pData : Option (List UInt8)) (presentationUs : UInt64)
  | turn (env : Env)
  | resend (rtpSeq : UInt16) (env : Env)
  /-- the SRTP sessions in `PeerConnectionSrtp_DeInit` -/
  | dealloc
  /-- the rolling buffer in `PeerConnectionSrtp_DeInit` -/
  | free

/-- A step; nothing moves after a fault, and only the writer's turn and the sessions' end while it has the mutex. -/
def step (s : Sender) : Action → Option Sender
  | .writeFrame naluArray pData presentationUs =>
    if s.heap.fault = true ∨ s.writing.isSome then none else some (writeH264Frame s naluArray pData presentationUs)
  | .turn env =>
    match s.writing with
    | some w => if s.heap.fault = true then none else some (turn cfg s env w)
    | none => none
  | .resend rtpSeq env =>
    if s.heap.fault = true ∨ s.writing.isSome then none else some (resendSrtpPacket cfg s env rtpSeq)
  | .dealloc => if s.heap.fault = true then none else some { s with srtpTransmitSession := false }
  | .free =>
    if s.heap.fault = true ∨ s.writing.isSome then none
    else
      let r := freeRollingBuffer s.txRollingBuffer s.heap
      some { s with txRollingBuffer := r.1, heap := r.2 }

/-- The sender after `PeerConnectionSrtp_Init`, with the first sequence numbers it drew. -/
def start (txRollingBuffer : RollingBuffer) (seq rtxSeq twccSeq : UInt16) : Sender where
  videoSequenceNumber := seq
  videoRtxSequenceNumber := rtxSeq
  twccSequence := twccSeq
  txRollingBuffer := txRollingBuffer
  heap := ⟨[], fun _ => ⟨zeroPacket, [], 0⟩, false⟩
  srtpTransmitSession := true
  rtpPacketsTransmitted := 0
  rtpBytesTransmitted := 0
  writing := none
  result := .ok
  packets := []
  resent := []

end IotcRa8p1.Media.VideoSender
