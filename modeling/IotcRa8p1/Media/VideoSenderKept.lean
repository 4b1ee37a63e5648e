import IotcRa8p1.Media.H264Pipeline
import IotcRa8p1.Media.RtpRoundTrip
import IotcRa8p1.Media.VideoSender

/-!
# What the video sender keeps

`Kept`: the queue has the last packets handed to the network, as many as there is room for, and each block still
has what its retransmission needs.  `Turned` says once what a turn of the writer's loop can do.
-/

namespace IotcRa8p1.Media.VideoSender

open H264 Rtp PktQueue Rolling

/-! ### The packetizer between two turns -/

/-- The packetizer holds units, the first of them perhaps begun. -/
def Packetizing (h264 : PacketizerContext) : Prop :=
  ∃ nalus, Queued h264 nalus ∨ ∃ nalu sent, Fragmenting h264 nalu sent nalus

theorem getPacket_packetizing {h264 : PacketizerContext} (h : Packetizing h264) {size : ℕ} (h3 : 3 ≤ size)
    (h32 : size < 2 ^ 32) :
    (getPacket h264 size).1 = .noMorePackets ∨
      ∃ h264' payload, getPacket h264 size = (.ok, h264', payload) ∧ payload.length ≤ size ∧ Packetizing h264' := by
  obtain ⟨nalus, hqueued | ⟨nalu, sent, hfragmenting⟩⟩ := h
  · cases nalus with
    | nil => exact Or.inl (getPacket_none hqueued (by omega))
    | cons nalu nalus =>
      right
      rcases Nat.lt_or_ge size nalu.length with hlong | hfit
      · obtain ⟨h264', hget, hnext⟩ := getPacket_first hqueued h3 h32 hlong
        refine ⟨h264', _, hget, ?_, nalus, Or.inr ⟨nalu, _, hnext⟩⟩
        rw [fragment_length, List.length_take]
        omega
      · exact ⟨_, _, getPacket_single hqueued (by omega) hfit, hfit, nalus, Or.inl hqueued.single⟩
  · right
    rcases Nat.lt_or_ge (size - 2) (nalu.length - 1 - sent) with hlong | hfit
    · obtain ⟨h264', hget, hnext⟩ := getPacket_middle hfragmenting h3 h32 hlong
      refine ⟨h264', _, hget, ?_, nalus, Or.inr ⟨nalu, _, hnext⟩⟩
      rw [fragment_length, List.length_take]
      omega
    · obtain ⟨h264', hget, hnext⟩ := getPacket_last hfragmenting h3 h32 hfit
      refine ⟨h264', _, hget, ?_, nalus, Or.inl hnext⟩
      rw [fragment_length, List.length_drop]
      omega

/-! ### Serializing and encrypting -/

/-- The RTP packet in clear bytes. -/
def clearBytes (p : RtpPacket) : List UInt8 := headerBytes p.header ++ p.payload.getD []

theorem overwrite_length {buffer bytes : List UInt8} (h : bytes.length ≤ buffer.length) :
    (overwrite buffer bytes).length = buffer.length := by
  rw [overwrite, List.length_append, List.length_drop]
  omega

theorem calculateSerializedPacketLength_eq {p : RtpPacket} {n : ℕ} (h : calculateSerializedPacketLength p = some n) :
    n = (headerBytes p.header).length + p.payloadLength := by
  rw [calculateSerializedPacketLength] at h
  split_ifs at h
  dsimp only at h
  split_ifs at h
  rw [← Option.some.inj h, headerBytes_length]

/-- `Rtp_Serialize` writes into its buffer only, and the packet's clear bytes when it succeeds. -/
theorem rtpSerialize_cases {p : RtpPacket} (hp : p.payloadLength = (p.payload.getD []).length) {buffer : List UInt8}
    {n : ℕ} (hn : n ≤ buffer.length) :
    (rtpSerialize p (some buffer) n =
        (.ok, (clearBytes p).length, some (overwrite buffer (clearBytes p))) ∧ (clearBytes p).length ≤ n) ∨
      ∃ result m out, rtpSerialize p (some buffer) n = (result, m, some out) ∧ result ≠ .ok ∧
        out.length = buffer.length := by
  unfold rtpSerialize
  cases hcalc : calculateSerializedPacketLength p with
  | none => exact Or.inr ⟨_, _, _, rfl, nofun, rfl⟩
  | some m =>
    have hm := calculateSerializedPacketLength_eq hcalc
    have hlength : (clearBytes p).length = m := by
      rw [clearBytes, List.length_append, hm, hp]
    dsimp only
    by_cases hroom : n < m
    · rw [if_pos hroom]
      exact Or.inr ⟨_, _, _, rfl, nofun, rfl⟩
    · rw [if_neg hroom]
      have hheader : (overwrite buffer (headerBytes p.header)).length = buffer.length :=
        overwrite_length (by omega)
      have hclear : p.payload.getD [] = [] → clearBytes p = headerBytes p.header := by
        intro hnil
        rw [clearBytes, hnil, List.append_nil]
      cases hpayload : p.payload with
      | none =>
        rw [hpayload] at hclear
        left
        rw [hlength, hclear rfl]
        exact ⟨rfl, Nat.not_lt.mp hroom⟩
      | some payload =>
        rw [hpayload, Option.getD_some] at hp
        dsimp only
        rw [hp, List.take_length]
        split_ifs
        · exact Or.inr ⟨_, _, _, rfl, nofun, hheader⟩
        · left
          rw [hlength, clearBytes, hpayload]
          exact ⟨rfl, Nat.not_lt.mp hroom⟩

/-- What is handed to the network: the encrypted packet, or with no session the packet in clear and more. -/
def Handed (env : Env) (secured : Bool) (p : RtpPacket) (bytes : List UInt8) : Prop :=
  if secured = true then env.protect (clearBytes p) = some bytes else clearBytes p <+: bytes

/-- `PeerConnectionSrtp_ConstructSrtpPacket` writes into its buffer only; when it succeeds the packet is handed
over. -/
theorem constructSrtpPacket_cases {p : RtpPacket} (hp : p.payloadLength = (p.payload.getD []).length) (b : Bool)
    (env : Env) (buffer : List UInt8) {n : ℕ} (hn : n ≤ buffer.length) :
    ∃ result out m, constructSrtpPacket b env p buffer n = (result, out, m) ∧ out.length = buffer.length ∧ m ≤ n ∧
      (result = .ok → Handed env b p (out.take m)) := by
  rw [constructSrtpPacket]
  obtain ⟨hser, hroom⟩ | ⟨result, m, out, hser, hbad, hlength⟩ := rtpSerialize_cases hp hn
  · have hlength : (overwrite buffer (clearBytes p)).length = buffer.length := overwrite_length (by omega)
    have htake : (overwrite buffer (clearBytes p)).take (clearBytes p).length = clearBytes p := by
      rw [overwrite, List.take_left]
    rw [hser]
    dsimp only
    rw [htake]
    split_ifs with hmutex hsession
    · exact ⟨_, _, _, rfl, hlength, Nat.le_refl _, fun hok => by cases hok⟩
    · refine ⟨_, _, _, rfl, hlength, Nat.le_refl _, fun _ => ?_⟩
      rw [Handed, if_neg (by rw [hsession]; exact Bool.false_ne_true), overwrite]
      exact ⟨(buffer.drop (clearBytes p).length).take (n - (clearBytes p).length), by
        rw [List.take_append, List.take_of_length_le hroom]⟩
    · cases hprotect : env.protect (clearBytes p) with
      | none => exact ⟨_, _, _, rfl, hlength, Nat.le_refl _, fun hok => by cases hok⟩
      | some srtp =>
        dsimp only
        split_ifs with hfit
        · refine ⟨_, _, _, rfl, ?_, hfit, fun _ => ?_⟩
          · rw [overwrite_length (by omega), hlength]
          · rw [Handed, if_pos (Bool.eq_true_of_not_eq_false hsession), overwrite, List.take_left, hprotect]
        · exact ⟨_, _, _, rfl, hlength, Nat.le_refl _, fun hok => by cases hok⟩
  · rw [hser]
    cases result with
    | ok => exact absurd rfl hbad
    | _ => exact ⟨_, _, _, rfl, hlength, Nat.le_refl _, fun hok => by cases hok⟩

/-! ### The blocks -/

@[simp] theorem bytesOf_length (memory : ℕ → UInt8) (n : ℕ) : (bytesOf memory n).length = n := by
  rw [bytesOf, List.length_map, List.length_range]

theorem writeAt_length {buffer bytes : List UInt8} {i : ℕ} (h : i + bytes.length ≤ buffer.length) :
    (writeAt buffer i bytes).length = buffer.length := by
  rw [writeAt, List.length_append, List.length_append, List.length_take, List.length_drop]
  omega

theorem take_drop_writeAt {buffer bytes : List UInt8} {i : ℕ} (h : i ≤ buffer.length) :
    ((writeAt buffer i bytes).drop i).take bytes.length = bytes := by
  have hi : (buffer.take i).length = i := by
    rw [List.length_take]
    omega
  have hdrop : (buffer.take i ++ (bytes ++ buffer.drop (i + bytes.length))).drop i =
      bytes ++ buffer.drop (i + bytes.length) := by
    rw [List.drop_append_of_le_length (Nat.le_of_eq hi.symm), List.drop_of_length_le (Nat.le_of_eq hi), List.nil_append]
  rw [writeAt, List.append_assoc, hdrop, List.take_left]

/-- The fields of a header that stay as they are for a retransmission. -/
def restOf (h : RtpHeader) : RtpHeader := { h with sequenceNumber := 0, ssrc := 0, payloadType := 0 }

/-- What the block of a packet holds for its retransmission. -/
structure Matches (cfg : Config) (info : RtpPacketInfo) (sent : Sent) (block : RollingBufferPacket) : Prop where
  seq : info.seqNum = sent.rtp.header.sequenceNumber
  length : block.pPacketBuffer.length = cfg.maxSizePerPacket
  encrypted : cfg.bufferAfterEncrypt = true →
    block.pPacketBuffer.take info.serializedPacketLength = sent.bytes
  clear : cfg.bufferAfterEncrypt = false →
    sent.rtp.payload = some ((block.pPacketBuffer.drop 2).take info.serializedPacketLength) ∧
      info.serializedPacketLength + 2 ≤ cfg.maxSizePerPacket ∧ restOf block.rtpPacket.header = restOf sent.rtp.header

/-- The number of packets that are no longer in the queue. -/
def gone (capacity : ℕ) (packets : List Sent) : ℕ := packets.length - capacity

/-- The queue has the last packets, and their blocks match. -/
structure Kept (cfg : Config) (rb : RollingBuffer) (heap : Heap) (packets : List Sent)
    (history : List RtpPacketInfo) : Prop where
  keeps : Keeps rb heap history (gone rb.capacity packets)
  room : rb.maxSizePerPacket = cfg.maxSizePerPacket
  count : history.length = packets.length
  blocks : ∀ k info sent p, history[k]? = some info → packets[k]? = some sent →
    held history (gone rb.capacity packets) k = some p → Matches cfg info sent (heap.packet p)

/-- The same while a new block `p` is filled. -/
structure Filling (cfg : Config) (rb : RollingBuffer) (heap : Heap) (packets : List Sent)
    (history : List RtpPacketInfo) (p : ℕ) : Prop where
  fills : Fills rb heap history (gone rb.capacity packets) p
  room : rb.maxSizePerPacket = cfg.maxSizePerPacket
  count : history.length = packets.length
  blocks : ∀ k info sent i, history[k]? = some info → packets[k]? = some sent →
    held history (gone rb.capacity packets) k = some i → Matches cfg info sent (heap.packet i)
  length : (heap.packet p).pPacketBuffer.length = cfg.maxSizePerPacket

variable {cfg : Config} {rb : RollingBuffer} {heap : Heap} {packets : List Sent} {history : List RtpPacketInfo} {p : ℕ}

theorem Kept.getRtpSequenceBuffer (h : Kept cfg rb heap packets history) (memory : ℕ → UInt8) :
    ∃ heap' p, getRtpSequenceBuffer rb heap (some memory) = (.ok, some p, heap') ∧
      Filling cfg rb heap' packets history p ∧ (heap'.packet p).packetBufferLength = cfg.maxSizePerPacket := by
  obtain ⟨heap', hget, hfills, hpacket⟩ := h.keeps.getRtpSequenceBuffer memory
  have hself : heap'.packet heap.blocks.length =
      ⟨zeroPacket, bytesOf memory rb.maxSizePerPacket, rb.maxSizePerPacket⟩ := by
    rw [hpacket, Function.update_self]
  refine ⟨heap', _, hget, ⟨hfills, h.room, h.count, fun k info sent i hk hsent hi => ?_, ?_⟩, ?_⟩
  · rw [hpacket, Function.update_of_ne (hfills.ne hi)]
    exact h.blocks k info sent i hk hsent hi
  · rw [hself]
    exact (bytesOf_length _ _).trans h.room
  · rw [hself]
    exact h.room

theorem Filling.store (h : Filling cfg rb heap packets history p) {block : RollingBufferPacket}
    (hlength : block.pPacketBuffer.length = cfg.maxSizePerPacket) :
    Filling cfg rb (heap.store p block) packets history p := by
  refine ⟨h.fills.store (Nat.le_of_eq (hlength.trans h.length.symm)), h.room, h.count,
    fun k info sent i hk hsent hi => ?_, ?_⟩
  · show Matches cfg info sent (Function.update heap.packet p block i)
    rw [Function.update_of_ne (h.fills.ne hi)]
    exact h.blocks k info sent i hk hsent hi
  · show (Function.update heap.packet p block p).pPacketBuffer.length = _
    rw [Function.update_self]
    exact hlength

theorem Filling.discard (h : Filling cfg rb heap packets history p) :
    Kept cfg rb (discardRtpSequenceBuffer rb heap (some p)) packets history := by
  obtain ⟨hkeeps, hpacket⟩ := h.fills.discard
  refine ⟨hkeeps, h.room, h.count, fun k info sent i hk hsent hi => ?_⟩
  rw [hpacket]
  exact h.blocks k info sent i hk hsent hi

theorem gone_concat (capacity : ℕ) (packets : List Sent) (sent : Sent) :
    gone capacity packets ≤ gone capacity (packets ++ [sent]) := by
  rw [gone, gone, List.length_append]
  omega

/-- The new block joins the queue, in the place of the oldest one when that is full. -/
theorem Filling.setPacket (h : Filling cfg rb heap packets history p) {sent : Sent} {rtpSeq : UInt16}
    (hmatches : Matches cfg ⟨rtpSeq, some p, (heap.packet p).packetBufferLength⟩ sent (heap.packet p)) :
    ∃ rb' heap', setPacket rb heap rtpSeq p = (.ok, rb', heap') ∧ rb'.capacity = rb.capacity ∧
      isLive heap'.blocks p = true ∧
      Kept cfg rb' heap' (packets ++ [sent])
        (history ++ [⟨rtpSeq, some p, (heap.packet p).packetBufferLength⟩]) := by
  obtain ⟨rb', heap', hset, hkeeps, hpacket, hcapacity, hsize⟩ := h.fills.setPacket rtpSeq
  have hcap := h.fills.capacity
  have hroom := h.fills.rings.room
  have hcount := h.count
  have hgone : makeRoom rb.packetQueue (gone rb.capacity packets) = gone rb'.capacity (packets ++ [sent]) := by
    have hfull : isQueueFull rb.packetQueue ↔
        history.length = packets.length - rb.capacity + rb.packetQueue.rtpPacketInfoArrayLength :=
      h.fills.rings.full_iff
    have hlength : gone rb'.capacity (packets ++ [sent]) = packets.length + 1 - rb.capacity := by
      rw [gone, List.length_append, hcapacity]
      rfl
    rw [makeRoom, hlength, gone]
    by_cases hf : isQueueFull rb.packetQueue
    · have hlen := hfull.mp hf
      rw [if_pos hf]
      omega
    · rw [if_neg hf]
      have hfits : history.length ≤ packets.length - rb.capacity + rb.packetQueue.rtpPacketInfoArrayLength :=
        h.fills.rings.fits
      have hne : history.length ≠ packets.length - rb.capacity + rb.packetQueue.rtpPacketInfoArrayLength :=
        fun heq => hf (hfull.mpr heq)
      omega
  rw [hgone] at hkeeps
  have hlast : held (history ++ [⟨rtpSeq, some p, (heap.packet p).packetBufferLength⟩])
      (gone rb'.capacity (packets ++ [sent])) history.length = some p := by
    rw [held, if_pos, List.getElem?_concat_length]
    · rfl
    · rw [gone, List.length_append, List.length_singleton, hcapacity]
      omega
  refine ⟨rb', heap', hset, hcapacity, isLive_of_held hkeeps hlast, hkeeps, hsize.trans h.room, ?_, ?_⟩
  · rw [List.length_append, List.length_append, h.count]
    rfl
  · intro k info sent' i hk hsent hi
    rw [hpacket]
    rcases Nat.lt_or_ge k history.length with hlt | hge
    · rw [List.getElem?_append_left hlt] at hk
      rw [List.getElem?_append_left (hcount ▸ hlt)] at hsent
      refine h.blocks k info sent' i hk hsent ?_
      rw [held] at hi ⊢
      split_ifs at hi with hle
      rw [if_pos (Nat.le_trans (hcapacity ▸ gone_concat _ _ _) hle)]
      rwa [List.getElem?_append_left hlt] at hi
    · obtain rfl : k = history.length := by
        have hlt := (List.getElem?_eq_some_iff.mp hk).1
        rw [List.length_append, List.length_singleton] at hlt
        omega
      rw [hlast] at hi
      obtain rfl := Option.some.inj hi
      rw [List.getElem?_concat_length] at hk
      rw [hcount, List.getElem?_concat_length] at hsent
      obtain rfl := Option.some.inj hk
      obtain rfl := Option.some.inj hsent
      exact hmatches

/-! ### A turn of the loop -/

variable {s : Sender} {w : Writer} {env : Env}

/-- The bytes of a payload that a packet has room for. -/
def Config.payloadRoom (cfg : Config) : ℕ :=
  if cfg.bufferAfterEncrypt = true then rtpPayloadMaxLength else rtpPayloadMaxLength - rtxWriteReservedBytes

theorem payloadRoom_eq {block : RollingBufferPacket} (h : block.packetBufferLength = cfg.maxSizePerPacket) :
    payloadRoom cfg block = cfg.payloadRoom := by
  rw [payloadRoom, Config.payloadRoom, h, Config.maxSizePerPacket]
  split_ifs <;> rfl

theorem Config.payloadRoom_bounds (cfg : Config) : 3 ≤ cfg.payloadRoom ∧ cfg.payloadRoom ≤ 1200 := by
  rw [Config.payloadRoom]
  split_ifs <;> decide

/-- The next congestion control number. -/
def nextTwcc (cfg : Config) (s : Sender) : UInt16 :=
  if 0 < cfg.twccId then s.twccSequence + 1 else s.twccSequence

/-- The packet of a turn, as it was handed over. -/
structure Packet (cfg : Config) (s : Sender) (w : Writer) (env : Env) (h264 : PacketizerContext) (sent : Sent) :
    Prop where
  payload : ∃ payload, getPacket w.h264 cfg.payloadRoom = (.ok, h264, payload) ∧
    payload.length ≤ cfg.payloadRoom ∧
    sent.rtp = rtpPacketOf cfg s w.presentationUs (h264.naluCount = 0) payload
  packetizing : Packetizing h264
  handed : Handed env s.srtpTransmitSession sent.rtp sent.bytes
  secured : sent.secured = s.srtpTransmitSession

/-- The sender once a packet is kept. -/
def withPacket (cfg : Config) (s : Sender) (rb : RollingBuffer) (heap : Heap) (sent : Sent) : Sender :=
  { s with
    txRollingBuffer := rb
    heap := heap
    videoSequenceNumber := s.videoSequenceNumber + 1
    twccSequence := nextTwcc cfg s
    packets := s.packets ++ [sent] }

/-- The writer once a packet is sent. -/
def Writer.next (w : Writer) (h264 : PacketizerContext) (sent : Sent) : Writer :=
  { w with
    h264 := h264
    packetSent := w.packetSent + 1
    bytesSent := w.bytesSent + UInt32.ofNat sent.rtp.payloadLength }

/-- What a turn of the loop does: it ends the frame, gives up on a packet that is not encrypted, keeps a packet
and sends it, or keeps one that the network does not take. -/
inductive Turned (cfg : Config) (s : Sender) (w : Writer) (env : Env) : Sender → Prop
  | ended {heap : Heap} {history : List RtpPacketInfo} : (getPacket w.h264 cfg.payloadRoom).1 = .noMorePackets →
      Kept cfg s.txRollingBuffer heap s.packets history → Turned cfg s w env (finish { s with heap := heap } w .ok)
  | failed {heap : Heap} {history : List RtpPacketInfo} {h264 : PacketizerContext} {payload out : List UInt8}
      {result : PeerConnectionResult} : getPacket w.h264 cfg.payloadRoom = (.ok, h264, payload) →
      payload.length ≤ cfg.payloadRoom → out.length = rtpPacketMaxLength →
      (constructSrtpPacket s.srtpTransmitSession env
        (rtpPacketOf cfg s w.presentationUs (h264.naluCount = 0) payload) out rtpPacketMaxLength).1 = result →
      result ≠ .ok → Kept cfg s.txRollingBuffer heap s.packets history →
      Turned cfg s w env
        (finish { s with heap := heap, twccSequence := nextTwcc cfg s } { w with h264 := h264 } result)
  | sent {rb : RollingBuffer} {heap : Heap} {history : List RtpPacketInfo} {h264 : PacketizerContext} {sent : Sent} :
      Packet cfg s w env h264 sent → env.send = true →
      rb.capacity = s.txRollingBuffer.capacity → Kept cfg rb heap (s.packets ++ [sent]) history →
      Turned cfg s w env { withPacket cfg s rb heap sent with writing := some (w.next h264 sent) }
  | lost {rb : RollingBuffer} {heap : Heap} {history : List RtpPacketInfo} {h264 : PacketizerContext} {sent : Sent} :
      Packet cfg s w env h264 sent → env.send = false →
      rb.capacity = s.txRollingBuffer.capacity → Kept cfg rb heap (s.packets ++ [sent]) history →
      Turned cfg s w env
        (finish (withPacket cfg s rb heap sent) { w with h264 := h264 } .failIceControllerSendRtpPacket)

theorem Kept.touch {i : ℕ} (h : Kept cfg rb heap packets history) (hi : isLive heap.blocks i = true) :
    Kept cfg rb (heap.touch i) packets history :=
  ⟨h.keeps.touch hi, h.room, h.count, h.blocks⟩

theorem keepAndSend_cases (env : Env) {sent : Sent}
    (h : Filling cfg s.txRollingBuffer s.heap s.packets history p)
    (hmatches : Matches cfg ⟨s.videoSequenceNumber, some p, (s.heap.packet p).packetBufferLength⟩ sent
      (s.heap.packet p)) :
    ∃ rb heap history', rb.capacity = s.txRollingBuffer.capacity ∧
      Kept cfg rb heap (s.packets ++ [sent]) history' ∧
      keepAndSend s env w p sent =
        let s' := { s with
          txRollingBuffer := rb
          heap := heap
          videoSequenceNumber := s.videoSequenceNumber + 1
          packets := s.packets ++ [sent] }
        if env.send = true then { s' with writing := some (w.next w.h264 sent) }
        else finish s' w .failIceControllerSendRtpPacket := by
  obtain ⟨rb, heap, hset, hcapacity, hlive, hkept⟩ := h.setPacket hmatches
  rw [keepAndSend, hset]
  dsimp only
  rw [if_pos rfl]
  by_cases hsend : env.send = true
  · rw [if_pos hsend]
    refine ⟨rb, heap.touch p, _, hcapacity, hkept.touch hlive, ?_⟩
    rw [if_pos hsend]
    rfl
  · rw [if_neg hsend]
    refine ⟨rb, heap, _, hcapacity, hkept, ?_⟩
    rw [if_neg hsend]

theorem sendPayload_turned {h264 : PacketizerContext} {payload : List UInt8} {heap : Heap}
    (h : Filling cfg s.txRollingBuffer heap s.packets history p)
    (hlength : (heap.packet p).packetBufferLength = cfg.maxSizePerPacket)
    (hget : getPacket w.h264 cfg.payloadRoom = (.ok, h264, payload)) (hfit : payload.length ≤ cfg.payloadRoom)
    (hnext : Packetizing h264) :
    Turned cfg s w env (sendPayload cfg { s with heap := heap } env { w with h264 := h264 } p payload) := by
  have hroom := cfg.payloadRoom_bounds
  have hrtp : (rtpPacketOf cfg s w.presentationUs (h264.naluCount = 0) payload).payloadLength =
      ((rtpPacketOf cfg s w.presentationUs (h264.naluCount = 0) payload).payload.getD []).length := rfl
  have hself (block : RollingBufferPacket) : (heap.store p block).packet p = block := Function.update_self _ _ _
  -- what is left once the packet is encrypted, or not
  have hrest {buffer : List UInt8} {result : PeerConnectionResult} {out : List UInt8} {m : ℕ} {heap' : Heap}
      (hbuffer : buffer.length = rtpPacketMaxLength)
      (hcons : constructSrtpPacket s.srtpTransmitSession env
        (rtpPacketOf cfg s w.presentationUs (h264.naluCount = 0) payload) buffer rtpPacketMaxLength = (result, out, m))
      (hhanded : result = .ok → Handed env s.srtpTransmitSession
        (rtpPacketOf cfg s w.presentationUs (h264.naluCount = 0) payload) (out.take m))
      (hfilling : Filling cfg s.txRollingBuffer heap' s.packets history p)
      (hmatches : Matches cfg ⟨s.videoSequenceNumber, some p, (heap'.packet p).packetBufferLength⟩
        ⟨rtpPacketOf cfg s w.presentationUs (h264.naluCount = 0) payload, out.take m, s.srtpTransmitSession⟩
        (heap'.packet p)) :
      Turned cfg s w env
        (if result = .ok then
          keepAndSend { s with heap := heap', twccSequence := nextTwcc cfg s } env { w with h264 := h264 } p
            ⟨rtpPacketOf cfg s w.presentationUs (h264.naluCount = 0) payload, out.take m, s.srtpTransmitSession⟩
        else finish (discard { s with heap := heap', twccSequence := nextTwcc cfg s } p)
          { w with h264 := h264 } result) := by
    by_cases hok : result = .ok
    · rw [if_pos hok]
      have hpacket : Packet cfg s w env h264
          ⟨rtpPacketOf cfg s w.presentationUs (h264.naluCount = 0) payload, out.take m, s.srtpTransmitSession⟩ :=
        ⟨⟨payload, hget, hfit, rfl⟩, hnext, hhanded hok, rfl⟩
      obtain ⟨rb, heap'', history', hcapacity, hkept, heq⟩ :=
        keepAndSend_cases (s := { s with heap := heap', twccSequence := nextTwcc cfg s })
          (w := { w with h264 := h264 }) env hfilling hmatches
      rw [heq]
      dsimp only
      split_ifs with hsend
      · exact .sent hpacket hsend hcapacity hkept
      · exact .lost hpacket (Bool.eq_false_iff.mpr hsend) hcapacity hkept
    · rw [if_neg hok]
      exact .failed hget hfit hbuffer (by rw [hcons]) hok hfilling.discard
  rw [sendPayload]
  by_cases hmode : cfg.bufferAfterEncrypt = true
  · have hmax : cfg.maxSizePerPacket = rtpPacketMaxLength := by
      rw [Config.maxSizePerPacket, if_pos hmode]
    have hblock : (heap.packet p).pPacketBuffer.length = rtpPacketMaxLength := h.length.trans hmax
    obtain ⟨result, out, m, hcons, hout, hm, hhanded⟩ := constructSrtpPacket_cases hrtp s.srtpTransmitSession env
      (heap.packet p).pPacketBuffer (n := rtpPacketMaxLength) (Nat.le_of_eq hblock.symm)
    have hcons' := hcons
    rw [← hmax, ← hlength] at hcons'
    simp only [if_pos hmode]
    rw [show constructSrtpPacket s.srtpTransmitSession env
      (rtpPacketOf cfg { s with heap := heap } w.presentationUs (h264.naluCount = 0) payload)
      (heap.packet p).pPacketBuffer (heap.packet p).packetBufferLength = (result, out, m) from hcons']
    refine hrest hblock hcons hhanded (h.store (hout.trans h.length)) ?_
    simp only [hself]
    exact ⟨rfl, hout.trans h.length, fun _ => rfl, fun hno => absurd (hmode.symm.trans hno) (by decide)⟩
  · have hmode' : cfg.bufferAfterEncrypt = false := Bool.eq_false_iff.mpr hmode
    have hmax : cfg.maxSizePerPacket = rtpPayloadMaxLength := by
      rw [Config.maxSizePerPacket, if_neg hmode]
    have hpayload : cfg.payloadRoom = 1198 := by
      rw [Config.payloadRoom, if_neg hmode]
      rfl
    have hblock : (heap.packet p).pPacketBuffer.length = 1200 := h.length.trans hmax
    have hwrite : (writeAt (heap.packet p).pPacketBuffer rtxWriteReservedBytes payload).length = 1200 := by
      rw [writeAt_length (by rw [hblock]; show 2 + payload.length ≤ 1200; omega), hblock]
    have hbuffer := bytesOf_length env.rtpBuffer rtpPacketMaxLength
    obtain ⟨result, out, m, hcons, hout, hm, hhanded⟩ := constructSrtpPacket_cases hrtp s.srtpTransmitSession env
      (bytesOf env.rtpBuffer rtpPacketMaxLength) (n := rtpPacketMaxLength) (Nat.le_of_eq hbuffer.symm)
    simp only [if_neg hmode]
    rw [show constructSrtpPacket s.srtpTransmitSession env
      (rtpPacketOf cfg { s with heap := heap } w.presentationUs (h264.naluCount = 0) payload)
      (bytesOf env.rtpBuffer rtpPacketMaxLength) rtpPacketMaxLength = (result, out, m) from hcons]
    refine hrest hbuffer hcons hhanded (h.store (hwrite.trans hmax.symm)) ?_
    simp only [hself]
    refine ⟨rfl, hwrite.trans hmax.symm, fun hyes => absurd hyes hmode, fun _ => ⟨?_, ?_, rfl⟩⟩
    · show some payload = some _
      rw [show (2 : ℕ) = rtxWriteReservedBytes from rfl, take_drop_writeAt (by rw [hblock]; decide)]
    · show payload.length + 2 ≤ _
      rw [hmax]
      show payload.length + 2 ≤ 1200
      omega

/-- A turn of the loop on memory that is given. -/
theorem turn_turned (env : Env) (h : Kept cfg s.txRollingBuffer s.heap s.packets history) (hw : Packetizing w.h264)
    {memory : ℕ → UInt8} (hmalloc : env.malloc = some memory) : Turned cfg s w env (turn cfg s env w) := by
  obtain ⟨h3, h1200⟩ := cfg.payloadRoom_bounds
  obtain ⟨heap, p, hbuffer, hfilling, hlength⟩ := h.getRtpSequenceBuffer memory
  rw [turn, hmalloc, hbuffer]
  dsimp only
  rw [payloadRoom_eq hlength]
  obtain hnone | ⟨h264, payload, hget, hfit, hnext⟩ := getPacket_packetizing hw h3 (by omega)
  · rw [show getPacket w.h264 cfg.payloadRoom =
      (.noMorePackets, (getPacket w.h264 cfg.payloadRoom).2) from Prod.ext hnone rfl]
    exact .ended hnone hfilling.discard
  · rw [hget]
    exact sendPayload_turned hfilling hlength hget hfit hnext

end IotcRa8p1.Media.VideoSender
