import IotcRa8p1.Media.VideoSenderKept

/-!
# Runs of the video sender

Any order of turns, retransmissions and the two parts of the end, with any of the calls outside failing except
`pvPortMalloc`.  `sender_memory`: no released block is used, and the blocks live are those in the queue.
`sender_packets`: what a step hands to the network.  `resend_window`: what a retransmission repeats.
-/

namespace IotcRa8p1.Media.VideoSender

open H264 Rtp PktQueue Rolling Heaps Machine

variable {cfg : Config} {rb : RollingBuffer} {heap : Heap} {packets : List Sent} {history : List RtpPacketInfo}
  {s : Sender}
  {env : Env} {rtpSeq : UInt16}

/-! ### A retransmission -/

/-- A write to the block of a packet in the queue that still matches the packet. -/
theorem Kept.store (h : Kept cfg rb heap packets history) {k i : ℕ} {block : RollingBufferPacket}
    {info : RtpPacketInfo} {sent : Sent} (hk : history[k]? = some info) (hsent : packets[k]? = some sent)
    (hi : held history (gone rb.capacity packets) k = some i) (hmatches : Matches cfg info sent block) :
    Kept cfg rb (heap.store i block) packets history := by
  have hold := h.blocks k info sent i hk hsent hi
  refine ⟨h.keeps.store (isLive_of_held h.keeps hi) (Nat.le_of_eq (hmatches.length.trans hold.length.symm)),
    h.room, h.count, fun k' info' sent' i' hk' hsent' hi' => ?_⟩
  show Matches cfg info' sent' (Function.update heap.packet i block i')
  by_cases heq : i' = i
  · subst heq
    obtain rfl : k = k' := h.keeps.good.owns.uniq hi hi'
    obtain rfl := Option.some.inj (hk.symm.trans hk')
    obtain rfl := Option.some.inj (hsent.symm.trans hsent')
    rw [Function.update_self]
    exact hmatches
  · rw [Function.update_of_ne heq]
    exact h.blocks k' info' sent' i' hk' hsent' hi'

/-- The RTX packet of a packet sent before: its number in front of the payload, and a header of its own. -/
def rtxPacketOf (cfg : Config) (s : Sender) (sent : Sent) : RtpPacket :=
  let payload := osn sent.rtp.header.sequenceNumber ++ sent.rtp.payload.getD []
  { header :=
      { sent.rtp.header with
        sequenceNumber := s.videoRtxSequenceNumber
        ssrc := cfg.rtxSsrc
        payloadType := cfg.videoCodecRtxPayload.toUInt8 }
    payload := some payload
    payloadLength := payload.length }

theorem osn_length (rtpSeq : UInt16) : (osn rtpSeq).length = 2 := ByteMem.beBytes_length 2 _

theorem header_eq {a b : RtpHeader} (h : restOf a = restOf b) (seq : UInt16) (ssrc : UInt32) (payloadType : UInt8) :
    ({ a with sequenceNumber := seq, ssrc := ssrc, payloadType := payloadType } : RtpHeader) =
      { b with sequenceNumber := seq, ssrc := ssrc, payloadType := payloadType } :=
  congrArg (fun c : RtpHeader => { c with sequenceNumber := seq, ssrc := ssrc, payloadType := payloadType }) h

theorem writeAt_zero {buffer bytes : List UInt8} : writeAt buffer 0 bytes = bytes ++ buffer.drop bytes.length := by
  rw [writeAt, List.take_zero, List.nil_append, Nat.zero_add]

/-- The block of a packet kept in clear makes its RTX packet, and still matches the packet. -/
theorem rtxBlock_eq {info : RtpPacketInfo} {sent : Sent} {block : RollingBufferPacket}
    (h : Matches cfg info sent block) (hmode : cfg.bufferAfterEncrypt = false)
    (hlength : block.packetBufferLength = info.serializedPacketLength) :
    (rtxBlock cfg s info.seqNum block).rtpPacket = rtxPacketOf cfg s sent ∧
      Matches cfg info sent (rtxBlock cfg s info.seqNum block) := by
  obtain ⟨hpayload, hroom, hheader⟩ := h.clear hmode
  have hosn := osn_length info.seqNum
  have hbuffer := h.length
  have hwrite : writeAt block.pPacketBuffer 0 (osn info.seqNum) = osn info.seqNum ++ block.pPacketBuffer.drop 2 := by
    rw [writeAt_zero, hosn]
  have htake : (osn info.seqNum ++ block.pPacketBuffer.drop 2).take (block.packetBufferLength + 2) =
      osn sent.rtp.header.sequenceNumber ++ sent.rtp.payload.getD [] := by
    rw [hpayload, Option.getD_some, ← h.seq, hlength, Nat.add_comm, ← hosn, List.take_length_add_append, hosn]
  have hlen : (osn sent.rtp.header.sequenceNumber ++ sent.rtp.payload.getD []).length =
      block.packetBufferLength + 2 := by
    rw [hpayload, Option.getD_some, List.length_append, osn_length, List.length_take, List.length_drop, hlength]
    omega
  constructor
  · simp only [rtxBlock, rtxPacketOf, hwrite, htake, hlen, header_eq hheader]
  · refine ⟨h.seq, ?_, fun hyes => absurd (hyes.symm.trans hmode) (by decide), fun _ => ⟨?_, hroom, hheader⟩⟩
    · show (writeAt block.pPacketBuffer 0 (osn info.seqNum)).length = _
      rw [writeAt_length (by rw [hosn]; omega), hbuffer]
    · show sent.rtp.payload = some (((writeAt block.pPacketBuffer 0 (osn info.seqNum)).drop 2).take _)
      rw [hwrite, List.drop_append_of_le_length (Nat.le_of_eq hosn.symm), List.drop_of_length_le (Nat.le_of_eq hosn)]
      exact hpayload

/-- Packet number `k` is still in the queue, and has this sequence number. -/
structure InWindow (s : Sender) (rtpSeq : UInt16) (k : ℕ) (sent : Sent) : Prop where
  recent : gone s.txRollingBuffer.capacity s.packets ≤ k
  packet : s.packets[k]? = some sent
  seq : sent.rtp.header.sequenceNumber = rtpSeq

/-- What a retransmission does: it finds no packet, repeats the encrypted one, or sends an RTX packet, unless that is
not encrypted. -/
inductive Resent (cfg : Config) (s : Sender) (env : Env) (rtpSeq : UInt16) : Sender → Prop
  | missing : (∀ k sent, ¬ InWindow s rtpSeq k sent) →
      Resent cfg s env rtpSeq { s with result := .failRtpPacketNotFound }
  | repeated {heap : Heap} {history : List RtpPacketInfo} {k : ℕ} {sent : Sent} : InWindow s rtpSeq k sent →
      cfg.bufferAfterEncrypt = true → Kept cfg s.txRollingBuffer heap s.packets history →
      Resent cfg s env rtpSeq (sendAgain { s with heap := heap } env sent.bytes)
  | rtx {heap : Heap} {history : List RtpPacketInfo} {k : ℕ} {sent : Sent} {bytes : List UInt8} :
      InWindow s rtpSeq k sent → cfg.bufferAfterEncrypt = false →
      Handed env s.srtpTransmitSession (rtxPacketOf cfg s sent) bytes →
      Kept cfg s.txRollingBuffer heap s.packets history →
      Resent cfg s env rtpSeq
        (sendAgain { s with heap := heap, videoRtxSequenceNumber := s.videoRtxSequenceNumber + 1 } env bytes)
  | failed {heap : Heap} {history : List RtpPacketInfo} {k : ℕ} {sent : Sent} {out : List UInt8}
      {result : PeerConnectionResult} : InWindow s rtpSeq k sent → cfg.bufferAfterEncrypt = false →
      out.length = rtpPacketMaxLength →
      (constructSrtpPacket s.srtpTransmitSession env (rtxPacketOf cfg s sent) out rtpPacketMaxLength).1 = result →
      result ≠ .ok → Kept cfg s.txRollingBuffer heap s.packets history →
      Resent cfg s env rtpSeq
        { s with heap := heap, videoRtxSequenceNumber := s.videoRtxSequenceNumber + 1, result := result }

theorem resend_resent (env : Env) (rtpSeq : UInt16) (h : Kept cfg s.txRollingBuffer s.heap s.packets history) :
    Resent cfg s env rtpSeq (resendSrtpPacket cfg s env rtpSeq) := by
  have hsearch := h.keeps.search rtpSeq
  have hcount := h.count
  cases hfind : (history.drop (gone s.txRollingBuffer.capacity s.packets)).find?
      fun info => info.seqNum = rtpSeq with
  | none =>
    rw [hfind] at hsearch
    rw [resendSrtpPacket, hsearch]
    refine .missing fun k sent hwindow => ?_
    have hlt : k < history.length := by
      rw [hcount]
      exact (List.getElem?_eq_some_iff.mp hwindow.packet).1
    obtain ⟨i, hi⟩ := Option.ne_none_iff_exists'.mp (h.keeps.filled _ (List.getElem_mem hlt))
    have hheld : held history (gone s.txRollingBuffer.capacity s.packets) k = some i := by
      rw [held, if_pos hwindow.recent, List.getElem?_eq_getElem hlt]
      exact hi
    have hmatches := h.blocks k _ sent i (List.getElem?_eq_getElem hlt) hwindow.packet hheld
    have hmem : history[k] ∈ history.drop (gone s.txRollingBuffer.capacity s.packets) := by
      rw [List.mem_drop_iff_getElem]
      exact ⟨k - gone s.txRollingBuffer.capacity s.packets, by have := hwindow.recent; omega,
        by congr 1; have := hwindow.recent; omega⟩
    have hno := List.find?_eq_none.mp hfind _ hmem
    rw [decide_eq_true_eq] at hno
    exact hno (hmatches.seq.trans hwindow.seq)
  | some info =>
    rw [hfind] at hsearch
    obtain ⟨k, i, hk, hrecent, hseq, -, hi, heq⟩ := hsearch
    have hlt : k < s.packets.length := by
      rw [← hcount]
      exact (List.getElem?_eq_some_iff.mp hk).1
    have hsent : s.packets[k]? = some s.packets[k] := List.getElem?_eq_getElem hlt
    have hmatches := h.blocks k info _ i hk hsent hi
    have hwindow : InWindow s rtpSeq k s.packets[k] := ⟨hrecent, hsent, hmatches.seq.symm.trans hseq⟩
    -- the length of the packet is set again
    have hmatches' : Matches cfg info s.packets[k]
        { s.heap.packet i with packetBufferLength := info.serializedPacketLength } :=
      ⟨hmatches.seq, hmatches.length, hmatches.encrypted, hmatches.clear⟩
    have hkept := h.store hk hsent hi hmatches'
    have hself : (s.heap.store i { s.heap.packet i with packetBufferLength := info.serializedPacketLength }).packet i =
        { s.heap.packet i with packetBufferLength := info.serializedPacketLength } := Function.update_self _ _ _
    rw [resendSrtpPacket, heq]
    simp only [hself]
    by_cases hmode : cfg.bufferAfterEncrypt = true
    · rw [if_pos hmode]
      have hrepeated : Resent cfg s env rtpSeq _ := .repeated hwindow hmode hkept
      rwa [← hmatches.encrypted hmode] at hrepeated
    · have hmode' : cfg.bufferAfterEncrypt = false := Bool.eq_false_iff.mpr hmode
      obtain ⟨hrtp, hmatches''⟩ := rtxBlock_eq (s := s) hmatches' hmode' rfl
      rw [hseq] at hrtp hmatches''
      have hbuffer := bytesOf_length env.rtpBuffer rtpPacketMaxLength
      obtain ⟨result, out, m, hcons, -, -, hhanded⟩ := constructSrtpPacket_cases (p := rtxPacketOf cfg s s.packets[k])
        rfl s.srtpTransmitSession env (bytesOf env.rtpBuffer rtpPacketMaxLength) (n := rtpPacketMaxLength)
        (Nat.le_of_eq hbuffer.symm)
      have hkept' := hkept.store hk hsent hi hmatches''
      rw [if_neg hmode, hrtp, hcons]
      dsimp only
      split_ifs with hok
      · exact .rtx hwindow hmode' (hhanded hok) hkept'
      · exact .failed hwindow hmode' hbuffer (by rw [hcons]) hok hkept'

/-! ### The invariant -/

/-- The RTP packet of some payload, with this number. -/
def Made (cfg : Config) (number : UInt16) (p : RtpPacket) : Prop :=
  ∃ s presentationUs last payload, p = rtpPacketOf cfg s presentationUs last payload ∧
    s.videoSequenceNumber = number ∧ payload.length ≤ cfg.payloadRoom

/-- Between two steps: the queue is as it should be, or all blocks are released. -/
structure Inv (cfg : Config) (seq : UInt16) (capacity : ℕ) (s : Sender) : Prop where
  fault : s.heap.fault = false
  capacity : s.txRollingBuffer.capacity = capacity
  store : (∃ history, Kept cfg s.txRollingBuffer s.heap s.packets history) ∨
    s.txRollingBuffer.isInit = false ∧ ∀ b ∈ s.heap.blocks, b.frees = [()]
  writer : ∀ w, s.writing = some w → Packetizing w.h264
  next : s.videoSequenceNumber = seq + UInt16.ofNat s.packets.length
  made : ∀ k sent, s.packets[k]? = some sent → Made cfg (seq + UInt16.ofNat k) sent.rtp

/-- The memory for a packet is given. -/
def Mallocs (_ : Sender) : Action → Prop
  | .turn env => env.malloc ≠ none
  | _ => True

variable {seq : UInt16} {capacity : ℕ}

theorem Inv.kept (h : Inv cfg seq capacity s) (hinit : s.txRollingBuffer.isInit = true) :
    ∃ history, Kept cfg s.txRollingBuffer s.heap s.packets history := by
  obtain hkept | ⟨hfree, -⟩ := h.store
  · exact hkept
  · rw [hinit] at hfree
    contradiction

/-- A rolling buffer just created, and nothing else. -/
theorem start_inv {bitRate durationSec : UInt32} {malloc : Bool}
    (hcreate : create bitRate durationSec cfg.maxSizePerPacket malloc = .ok rb) (seq rtxSeq twccSeq : UInt16) :
    Inv cfg seq rb.capacity (start rb seq rtxSeq twccSeq) := by
  rw [create] at hcreate
  split_ifs at hcreate
  dsimp only at hcreate
  cases hqueue : init ((durationSec * bitRate / 8).toNat / cfg.maxSizePerPacket) with
  | none =>
    rw [hqueue] at hcreate
    exact nomatch hcreate
  | some q =>
    rw [hqueue] at hcreate
    obtain rfl := Except.ok.inj hcreate
    obtain ⟨hrings, hlength⟩ := init_rings hqueue
    have hkeeps : Keeps ⟨true, q, cfg.maxSizePerPacket, (durationSec * bitRate / 8).toNat / cfg.maxSizePerPacket⟩
        ⟨[], fun _ => ⟨zeroPacket, [], 0⟩, false⟩ [] 0 := by
      refine ⟨rfl, hlength.symm, hrings, ?_, nofun, rfl⟩
      have hheld : held [] 0 = fun _ => none := funext fun k => held_ge (Nat.zero_le k)
      rw [hheld]
      exact Pointers.good_empty ()
    refine ⟨rfl, rfl, Or.inl ⟨[], ?_, rfl, rfl, nofun⟩, nofun, ?_, nofun⟩
    · rw [gone, start, List.length_nil, Nat.zero_sub]
      exact hkeeps
    · exact (UInt16.add_zero seq).symm

theorem number_step (seq : UInt16) (n : ℕ) : seq + UInt16.ofNat n + 1 = seq + UInt16.ofNat (n + 1) := by
  rw [UInt16.ofNat_add, UInt16.add_assoc]
  rfl

/-- The state behind a packet, whatever the writer does next. -/
theorem Inv.packet (h : Inv cfg seq capacity s) {w : Writer} {heap : Heap} {h264 : PacketizerContext} {sent : Sent}
    (hpacket : Packet cfg s w env h264 sent) (hkept : Kept cfg rb heap (s.packets ++ [sent]) history)
    (hcapacity : rb.capacity = s.txRollingBuffer.capacity) {s' : Sender}
    (hrb : s'.txRollingBuffer = rb) (hheap : s'.heap = heap) (hpackets : s'.packets = s.packets ++ [sent])
    (hnext : s'.videoSequenceNumber = s.videoSequenceNumber + 1)
    (hwriter : ∀ w, s'.writing = some w → Packetizing w.h264) : Inv cfg seq capacity s' := by
  obtain ⟨payload, -, hfit, hrtp⟩ := hpacket.payload
  refine ⟨hheap ▸ hkept.keeps.fault, ?_, Or.inl ⟨history, ?_⟩, hwriter, ?_, fun k sent' hk => ?_⟩
  · rw [hrb, hcapacity, h.capacity]
  · rw [hrb, hheap, hpackets]
    exact hkept
  · rw [hnext, h.next, hpackets, number_step, List.length_append, List.length_singleton]
  · rw [hpackets] at hk
    rcases Nat.lt_or_ge k s.packets.length with hlt | hge
    · rw [List.getElem?_append_left hlt] at hk
      exact h.made k sent' hk
    · obtain rfl : k = s.packets.length := by
        have hlt := (List.getElem?_eq_some_iff.mp hk).1
        rw [List.length_append, List.length_singleton] at hlt
        omega
      rw [List.getElem?_concat_length] at hk
      rw [← Option.some.inj hk]
      exact ⟨s, _, _, payload, hrtp, h.next, hfit⟩

/-- The state behind a step that keeps no packet. -/
theorem Inv.unchanged (h : Inv cfg seq capacity s) {s' : Sender}
    (hkept : Kept cfg s.txRollingBuffer s'.heap s.packets history) (hrb : s'.txRollingBuffer = s.txRollingBuffer)
    (hpackets : s'.packets = s.packets) (hnext : s'.videoSequenceNumber = s.videoSequenceNumber)
    (hwriter : ∀ w, s'.writing = some w → Packetizing w.h264) : Inv cfg seq capacity s' := by
  refine ⟨hkept.keeps.fault, hrb ▸ h.capacity, Or.inl ⟨history, ?_⟩, hwriter, ?_, ?_⟩
  · rw [hrb, hpackets]
    exact hkept
  · rw [hnext, hpackets]
    exact h.next
  · rw [hpackets]
    exact h.made

theorem turn_inv (h : Inv cfg seq capacity s) {w : Writer} (hw : s.writing = some w) (hmalloc : env.malloc ≠ none) :
    Inv cfg seq capacity (turn cfg s env w) := by
  obtain ⟨history, hkept⟩ | ⟨hfree, hblocks⟩ := h.store
  · obtain ⟨memory, hmemory⟩ := Option.ne_none_iff_exists'.mp hmalloc
    have hturned := turn_turned env hkept (h.writer w hw) hmemory
    generalize turn cfg s env w = s' at hturned
    cases hturned with
    | ended _ hkept' => exact h.unchanged hkept' rfl rfl rfl fun _ hw' => by cases hw'
    | failed _ _ _ _ _ hkept' => exact h.unchanged hkept' rfl rfl rfl fun _ hw' => by cases hw'
    | sent hpacket _ hcapacity hkept' =>
      refine h.packet hpacket hkept' hcapacity rfl rfl rfl rfl fun w' hw' => ?_
      rw [← Option.some.inj hw']
      exact hpacket.packetizing
    | lost hpacket _ hcapacity hkept' => exact h.packet hpacket hkept' hcapacity rfl rfl rfl rfl fun _ hw' => by cases hw'
  · have hno : ¬ ready s.txRollingBuffer := by
      rintro ⟨hinit, -⟩
      rw [hfree] at hinit
      contradiction
    simp only [turn, getRtpSequenceBuffer, if_neg hno]
    refine ⟨h.fault, h.capacity, Or.inr ⟨hfree, hblocks⟩, ?_, h.next, h.made⟩
    intro _ hw'
    cases hw'

theorem resend_inv (h : Inv cfg seq capacity s) :
    Inv cfg seq capacity (resendSrtpPacket cfg s env rtpSeq) := by
  have hwriter : ∀ w, s.writing = some w → Packetizing w.h264 := h.writer
  obtain ⟨history, hkept⟩ | ⟨hfree, hblocks⟩ := h.store
  · have hresent := resend_resent env rtpSeq hkept
    generalize resendSrtpPacket cfg s env rtpSeq = s' at hresent
    cases hresent with
    | missing _ => exact h.unchanged hkept rfl rfl rfl hwriter
    | repeated _ _ hkept' => exact h.unchanged hkept' rfl rfl rfl hwriter
    | rtx _ _ _ hkept' => exact h.unchanged hkept' rfl rfl rfl hwriter
    | failed _ _ _ _ _ hkept' => exact h.unchanged hkept' rfl rfl rfl hwriter
  · have hno : ¬ ready s.txRollingBuffer := by
      rintro ⟨hinit, -⟩
      rw [hfree] at hinit
      contradiction
    simp only [resendSrtpPacket, searchRtpSequenceBuffer, if_neg hno]
    exact ⟨h.fault, h.capacity, Or.inr ⟨hfree, hblocks⟩, h.writer, h.next, h.made⟩

theorem writeH264Frame_inv (h : Inv cfg seq capacity s) (naluArray : ℕ → Option Nalu) (pData : Option (List UInt8))
    (presentationUs : UInt64) :
    Inv cfg seq capacity (writeH264Frame s naluArray pData presentationUs) := by
  rw [writeH264Frame]
  cases hinit : packetizerInit naluArray maxNalusInAFrame with
  | none => exact ⟨h.fault, h.capacity, h.store, h.writer, h.next, h.made⟩
  | some h264 =>
    dsimp only
    split
    · next h264' hadd =>
      refine ⟨h.fault, h.capacity, h.store, fun w' hw' => ?_, h.next, h.made⟩
      obtain ⟨frame, rfl⟩ : ∃ frame, pData = some frame := by
        cases pData with
        | none => exact nomatch hadd
        | some frame => exact ⟨frame, rfl⟩
      obtain ⟨hstored, hlength⟩ := packetizerInit_stored hinit
      obtain ⟨lead, units, hframed⟩ := framed_of_addFrame hstored (by rw [hadd])
      have hnext := (addFrame_framed hstored hframed).2
      rw [hadd] at hnext
      rw [← Option.some.inj hw']
      exact ⟨_, Or.inl hnext.toQueued⟩
    · refine ⟨h.fault, h.capacity, h.store, h.writer, h.next, h.made⟩

theorem free_inv (h : Inv cfg seq capacity s) :
    Inv cfg seq capacity { s with
      txRollingBuffer := (freeRollingBuffer s.txRollingBuffer s.heap).1
      heap := (freeRollingBuffer s.txRollingBuffer s.heap).2 } := by
  by_cases hinit : s.txRollingBuffer.isInit = true
  · obtain ⟨history, hkept⟩ := h.kept hinit
    obtain ⟨hblocks, hfault, -⟩ := hkept.keeps.freeLoop
    simp only [freeRollingBuffer, if_pos hinit]
    exact ⟨hfault, h.capacity, Or.inr ⟨rfl, hblocks⟩, h.writer, h.next, h.made⟩
  · simp only [freeRollingBuffer, if_neg hinit]
    exact h

/-- Every step keeps the invariant. -/
theorem step_inv {a : Action} {s' : Sender} (h : Inv cfg seq capacity s) (hmalloc : Mallocs s a)
    (hs : step cfg s a = some s') :
    Inv cfg seq capacity s' := by
  cases a with
  | writeFrame naluArray pData presentationUs =>
    rw [step] at hs
    split_ifs at hs
    obtain rfl := Option.some.inj hs
    exact writeH264Frame_inv h naluArray pData presentationUs
  | turn env =>
    rw [step] at hs
    cases hw : s.writing with
    | none =>
      rw [hw] at hs
      exact nomatch hs
    | some w =>
      rw [hw] at hs
      dsimp only at hs
      split_ifs at hs
      obtain rfl := Option.some.inj hs
      exact turn_inv h hw hmalloc
  | resend rtpSeq env =>
    rw [step] at hs
    split_ifs at hs
    obtain rfl := Option.some.inj hs
    exact resend_inv h
  | dealloc =>
    rw [step] at hs
    split_ifs at hs
    obtain rfl := Option.some.inj hs
    exact ⟨h.fault, h.capacity, h.store, h.writer, h.next, h.made⟩
  | free =>
    rw [step] at hs
    split_ifs at hs
    obtain rfl := Option.some.inj hs
    exact free_inv h

/-! ### A sample run -/

/-- RTX packets of their own payload type, a queue of two packets. -/
def sampleConfig : Config := ⟨1, 96, 97, 5, 6⟩

def sampleBuffer : RollingBuffer := ⟨true, ⟨fun _ => ⟨0, none, 0⟩, 2, 0, 0, 0⟩, 1200, 2⟩

theorem create_sample : create 19200 1 sampleConfig.maxSizePerPacket true = .ok sampleBuffer := rfl

/-- Encryption that adds a byte. -/
def sampleEnv : Env := ⟨some fun _ => 0, fun _ => 0, true, fun bytes => some (bytes ++ [0xAA]), true⟩

/-- A frame of two units, sent in two packets. -/
def sampleFrame : List Action :=
  .writeFrame (fun _ => none) (some [0, 0, 0, 1, 0x67, 1, 0, 0, 0, 1, 0x65, 2]) 1000000 ::
    List.replicate 3 (.turn sampleEnv)

theorem sampleFrame_mallocs (s : Sender) : Meets (step sampleConfig) Mallocs sampleFrame s := by
  apply meets_of_forall
  intro a ha s
  rcases List.mem_cons.mp ha with rfl | ha
  · trivial
  · rw [List.eq_of_mem_replicate ha]
    exact nofun

/-- The state behind the frame. -/
def sampleSender : Sender :=
  (runs (step sampleConfig) sampleFrame (start sampleBuffer 65535 0 0)).getD (start sampleBuffer 65535 0 0)

theorem runs_sample : runs (step sampleConfig) sampleFrame (start sampleBuffer 65535 0 0) = some sampleSender := by
  have hsome : (runs (step sampleConfig) sampleFrame (start sampleBuffer 65535 0 0)).isSome = true := by
    decide +kernel
  obtain ⟨s, hs⟩ := Option.isSome_iff_exists.mp hsome
  rw [sampleSender, hs]
  rfl

/-! ### Memory -/

variable {bitRate durationSec : UInt32} {malloc : Bool} {rtxSeq twccSeq : UInt16} {as : List Action}

/-- A state reached from a rolling buffer just created. -/
theorem reached_inv (hcreate : create bitRate durationSec cfg.maxSizePerPacket malloc = .ok rb)
    (hmalloc : Meets (step cfg) Mallocs as (start rb seq rtxSeq twccSeq))
    (hrun : runs (step cfg) as (start rb seq rtxSeq twccSeq) = some s) : Inv cfg seq rb.capacity s :=
  runs_invariant step_inv (start_inv hcreate seq rtxSeq twccSeq) hmalloc hrun

/-- No pointer in the queue is used after its block, no block is released twice, and none is lost. -/
structure Sound (s : Sender) : Prop where
  fault : s.heap.fault = false
  once : ∀ b ∈ s.heap.blocks, b.frees.length ≤ 1
  live : ∀ i, Live s.heap.blocks i ↔ s.txRollingBuffer.isInit = true ∧
    ∃ info ∈ contents s.txRollingBuffer.packetQueue, info.pSerializedRtpPacket = some i
  bound : s.txRollingBuffer.isInit = true →
    (contents s.txRollingBuffer.packetQueue).length ≤ s.txRollingBuffer.capacity

theorem Inv.sound (h : Inv cfg seq capacity s) : Sound s := by
  obtain ⟨history, hkept⟩ | ⟨hfree, hblocks⟩ := h.store
  · have hinit := hkept.keeps.isInit
    have hcontents := hkept.keeps.rings.contents
    have hgood := hkept.keeps.good
    have hheld : ∀ i, (∃ k, held history (gone s.txRollingBuffer.capacity s.packets) k = some i) ↔
        ∃ info ∈ contents s.txRollingBuffer.packetQueue, info.pSerializedRtpPacket = some i := by
      intro i
      rw [hcontents]
      constructor
      · rintro ⟨k, hk⟩
        rw [held] at hk
        split_ifs at hk with hle
        obtain ⟨info, hinfo, hp⟩ := Option.bind_eq_some_iff.mp hk
        refine ⟨info, List.mem_of_getElem? (i := k - gone s.txRollingBuffer.capacity s.packets) ?_, hp⟩
        rw [List.getElem?_drop, Nat.add_sub_cancel' hle]
        exact hinfo
      · rintro ⟨info, hinfo, hp⟩
        obtain ⟨k, hk⟩ := List.mem_iff_getElem?.mp hinfo
        rw [List.getElem?_drop] at hk
        refine ⟨gone s.txRollingBuffer.capacity s.packets + k, ?_⟩
        rw [held, if_pos (Nat.le_add_right _ _), hk]
        exact hp
    refine ⟨h.fault, fun b hb => ?_, fun i => ?_, fun _ => ?_⟩
    · obtain ⟨i, hi⟩ := List.mem_iff_getElem?.mp hb
      obtain ⟨k, hk⟩ | hfrees := hgood.settled i b hi
      · obtain ⟨b', hb', hnone⟩ := hgood.owns.live hk
        obtain rfl := Option.some.inj (hi.symm.trans hb')
        rw [hnone]
        exact Nat.zero_le _
      · rw [hfrees]
        exact Nat.le_refl _
    · rw [and_iff_right hinit, ← hheld]
      constructor
      · rintro ⟨b, hb, hnone⟩
        obtain hk | hfrees := hgood.settled i b hb
        · exact hk
        · rw [hnone] at hfrees
          cases hfrees
      · rintro ⟨k, hk⟩
        exact hgood.owns.live hk
    · have hfits := hkept.keeps.rings.fits
      have hcap := hkept.keeps.capacity
      rw [hcontents, List.length_drop]
      omega
  · refine ⟨h.fault, fun b hb => ?_, fun i => ?_, fun hinit => ?_⟩
    · rw [hblocks b hb]
      exact Nat.le_refl _
    · rw [hfree]
      refine ⟨?_, fun hinit => absurd hinit.1 Bool.false_ne_true⟩
      rintro ⟨b, hb, hnone⟩
      rw [hblocks b (List.mem_of_getElem? hb)] at hnone
      cases hnone
    · rw [hfree] at hinit
      cases hinit

/-- In every run the memory is sound. -/
theorem sender_memory (hcreate : create bitRate durationSec cfg.maxSizePerPacket malloc = .ok rb)
    (hmalloc : Meets (step cfg) Mallocs as (start rb seq rtxSeq twccSeq))
    (hrun : runs (step cfg) as (start rb seq rtxSeq twccSeq) = some s) : Sound s :=
  (reached_inv hcreate hmalloc hrun).sound

theorem sender_memory_sample : Sound sampleSender :=
  sender_memory create_sample (sampleFrame_mallocs _) runs_sample

/-! ### The packets -/

/-- What a step hands over for the first time: nothing, or the next packet of the writer under the next number. -/
def PacketStep (cfg : Config) (seq : UInt16) (s : Sender) (a : Action) (s' : Sender) : Prop :=
  s'.packets = s.packets ∨
    ∃ env w h264 sent, a = .turn env ∧ s.writing = some w ∧ s'.packets = s.packets ++ [sent] ∧
      Packet cfg s w env h264 sent ∧
      sent.rtp.header.sequenceNumber = seq + UInt16.ofNat s.packets.length

theorem packetStep_of_inv {a : Action} {s' : Sender} (h : Inv cfg seq capacity s) (hmalloc : Mallocs s a)
    (hs : step cfg s a = some s') : PacketStep cfg seq s a s' := by
  cases a with
  | writeFrame naluArray pData presentationUs =>
    rw [step] at hs
    split_ifs at hs
    obtain rfl := Option.some.inj hs
    left
    rw [writeH264Frame]
    cases packetizerInit naluArray maxNalusInAFrame with
    | none => rfl
    | some h264 =>
      dsimp only
      split <;> rfl
  | turn env =>
    rw [step] at hs
    cases hw : s.writing with
    | none =>
      rw [hw] at hs
      exact nomatch hs
    | some w =>
      rw [hw] at hs
      dsimp only at hs
      split_ifs at hs
      obtain rfl := Option.some.inj hs
      obtain ⟨history, hkept⟩ | ⟨hfree, -⟩ := h.store
      · obtain ⟨memory, hmemory⟩ := Option.ne_none_iff_exists'.mp hmalloc
        have hturned := turn_turned env hkept (h.writer w hw) hmemory
        have hnumber {h264 : PacketizerContext} {sent : Sent} (hpacket : Packet cfg s w env h264 sent) :
            sent.rtp.header.sequenceNumber = seq + UInt16.ofNat s.packets.length := by
          obtain ⟨payload, -, -, hrtp⟩ := hpacket.payload
          rw [hrtp]
          exact h.next
        generalize turn cfg s env w = s' at hturned
        cases hturned with
        | ended _ _ => exact Or.inl rfl
        | failed _ _ _ _ _ _ => exact Or.inl rfl
        | sent hpacket _ _ _ => exact Or.inr ⟨env, w, _, _, rfl, hw, rfl, hpacket, hnumber hpacket⟩
        | lost hpacket _ _ _ => exact Or.inr ⟨env, w, _, _, rfl, hw, rfl, hpacket, hnumber hpacket⟩
      · have hno : ¬ ready s.txRollingBuffer := by
          rintro ⟨hinit, -⟩
          rw [hfree] at hinit
          contradiction
        left
        simp only [turn, getRtpSequenceBuffer, if_neg hno]
        rfl
  | resend rtpSeq env =>
    rw [step] at hs
    split_ifs at hs
    obtain rfl := Option.some.inj hs
    left
    obtain ⟨history, hkept⟩ | ⟨hfree, -⟩ := h.store
    · have hresent := resend_resent env rtpSeq hkept
      generalize resendSrtpPacket cfg s env rtpSeq = s' at hresent
      cases hresent with
      | missing _ => rfl
      | repeated _ _ _ => rfl
      | rtx _ _ _ _ => rfl
      | failed _ _ _ _ _ _ => rfl
    · have hno : ¬ ready s.txRollingBuffer := by
        rintro ⟨hinit, -⟩
        rw [hfree] at hinit
        contradiction
      simp only [resendSrtpPacket, searchRtpSequenceBuffer, if_neg hno]
  | dealloc =>
    rw [step] at hs
    split_ifs at hs
    obtain rfl := Option.some.inj hs
    exact Or.inl rfl
  | free =>
    rw [step] at hs
    split_ifs at hs
    obtain rfl := Option.some.inj hs
    exact Or.inl rfl

/-- In every run a step hands over at most one new packet: the payload the packetizer gives, under the number after
the one before it, with the marker exactly when no unit is left, and encrypted exactly while there is a session. -/
theorem sender_packets (hcreate : create bitRate durationSec cfg.maxSizePerPacket malloc = .ok rb)
    (hmalloc : Meets (step cfg) Mallocs as (start rb seq rtxSeq twccSeq)) :
    AllSteps (step cfg) (PacketStep cfg seq) as (start rb seq rtxSeq twccSeq) :=
  allSteps_of_invariant step_inv packetStep_of_inv (start_inv hcreate seq rtxSeq twccSeq) hmalloc

theorem sender_packets_sample :
    AllSteps (step sampleConfig) (PacketStep sampleConfig 65535) sampleFrame (start sampleBuffer 65535 0 0) :=
  sender_packets create_sample (sampleFrame_mallocs _)

/-! ### Retransmissions -/

/-- The payload types have seven bits. -/
def Config.Valid (cfg : Config) : Prop :=
  cfg.videoCodecPayload.toUInt8.toNat < 2 ^ 7 ∧ cfg.videoCodecRtxPayload.toUInt8.toNat < 2 ^ 7

instance (cfg : Config) : Decidable cfg.Valid := inferInstanceAs (Decidable (_ ∧ _))

/-- Encryption gives a packet that fits, where there is a session. -/
def Encrypts (env : Env) (session : Bool) (p : RtpPacket) : Prop :=
  env.mutex = true ∧
    (session = true → ∃ srtp, env.protect (clearBytes p) = some srtp ∧ srtp.length ≤ rtpPacketMaxLength)

theorem rtpPacketOf_fits (cfg : Config) (s : Sender) (presentationUs : UInt64) (last : Bool) (payload : List UInt8)
    {payloadType : UInt8} (hpt : payloadType.toNat < 2 ^ 7) :
    HeaderFits { (rtpPacketOf cfg s presentationUs last payload).header with payloadType := payloadType } where
  count := Nat.zero_le _
  csrc := rfl
  payloadType := hpt
  extension := by
    intro e he
    show e.payload.length = e.extensionPayloadLength.toNat
    simp only [rtpPacketOf] at he
    split_ifs at he
    rw [← Option.some.inj he]
    rfl

/-- The bytes before the payload: the fixed header and at most two words of extension. -/
theorem rtpPacketOf_headerBytes (cfg : Config) (s : Sender) (presentationUs : UInt64) (last : Bool)
    (payload : List UInt8) :
    (headerBytes (rtpPacketOf cfg s presentationUs last payload).header).length ≤ 20 := by
  rw [headerBytes_length]
  show 12 + 0 * 4 + extensionLength (if 0 < cfg.twccId then _ else none) ≤ 20
  split_ifs
  · show 12 + 0 * 4 + (4 + 1 * 4) ≤ 20
    decide
  · decide

/-- A packet of the sender is serialized, and encrypted when that is possible. -/
theorem constructSrtpPacket_ok {p : RtpPacket} (hheader : HeaderFits p.header) (hpadding : p.header.padding = false)
    (hp : p.payloadLength = (p.payload.getD []).length) (hroom : (clearBytes p).length ≤ rtpPacketMaxLength)
    {session : Bool} (hencrypts : Encrypts env session p) (out : List UInt8) :
    (constructSrtpPacket session env p out rtpPacketMaxLength).1 = .ok := by
  have hser := rtpSerialize_some hheader ⟨hp, fun hyes => absurd (hyes.symm.trans hpadding) (by decide)⟩ out
    (show rtpPacketMaxLength < 2 ^ 32 by decide) hroom
  obtain ⟨hmutex, hprotect⟩ := hencrypts
  have htake : (overwrite out (clearBytes p)).take (clearBytes p).length = clearBytes p := by
    rw [overwrite, List.take_left]
  rw [constructSrtpPacket, hser]
  show (if env.mutex = false then _ else _ : PeerConnectionResult × List UInt8 × ℕ).1 = _
  rw [if_neg (by rw [hmutex]; decide)]
  split_ifs with hsession
  · rfl
  · obtain ⟨srtp, hsrtp, hfit⟩ := hprotect (Bool.eq_true_of_not_eq_false hsession)
    rw [show (overwrite out (headerBytes p.header ++ p.payload.getD [])).take
      (headerBytes p.header ++ p.payload.getD []).length = clearBytes p from htake, hsrtp]
    dsimp only
    rw [if_pos hfit]

/-- The receiver reads the packet from its clear bytes. -/
theorem rtpDeSerialize_clearBytes {p : RtpPacket} {payload : List UInt8} (hheader : HeaderFits p.header)
    (hpadding : p.header.padding = false) (hpayload : p.payload = some payload) (hne : payload ≠ [])
    (hp : p.payloadLength = payload.length) : rtpDeSerialize (clearBytes p) = .ok p := by
  have hread := rtpDeSerialize_wire hheader (.plain hpayload hp hne hpadding)
  rwa [wire, List.append_nil] at hread

theorem rtxPacketOf_fits {sent : Sent} {number : UInt16} (hmade : Made cfg number sent.rtp) (hvalid : cfg.Valid)
    (s : Sender) : HeaderFits (rtxPacketOf cfg s sent).header ∧ (rtxPacketOf cfg s sent).header.padding = false := by
  obtain ⟨t, us, last, payload, hrtp, -, -⟩ := hmade
  have hfits := rtpPacketOf_fits cfg t us last payload hvalid.2
  simp only [rtxPacketOf, hrtp]
  exact ⟨⟨hfits.count, hfits.csrc, hfits.payloadType, hfits.extension⟩, rfl⟩

theorem rtxPacketOf_length {sent : Sent} {number : UInt16} (hmade : Made cfg number sent.rtp) (s : Sender) :
    (clearBytes (rtxPacketOf cfg s sent)).length ≤ rtpPacketMaxLength := by
  obtain ⟨t, us, last, payload, hrtp, -, hfit⟩ := hmade
  have hheader := rtpPacketOf_headerBytes cfg t us last payload
  have hroom := cfg.payloadRoom_bounds
  have hosn := osn_length sent.rtp.header.sequenceNumber
  have hpayload : sent.rtp.payload.getD [] = payload := by
    rw [hrtp]
    rfl
  have hsame : (headerBytes (rtxPacketOf cfg s sent).header).length =
      (headerBytes (rtpPacketOf cfg t us last payload).header).length := by
    rw [headerBytes_length, headerBytes_length, ← hrtp]
    rfl
  rw [clearBytes, List.length_append, hsame]
  show _ + (osn sent.rtp.header.sequenceNumber ++ sent.rtp.payload.getD []).length ≤ 1400
  rw [List.length_append, hosn, hpayload]
  omega

/-- What a retransmission of a packet hands over: the very bytes it was sent with, or an RTX packet of it. -/
structure Repeats (cfg : Config) (s : Sender) (env : Env) (sent : Sent) (s' : Sender) : Prop where
  encrypted : cfg.bufferAfterEncrypt = true → s'.resent = s.resent ++ [sent.bytes]
  clear : cfg.bufferAfterEncrypt = false →
    (∃ bytes, Handed env s.srtpTransmitSession (rtxPacketOf cfg s sent) bytes ∧ s'.resent = s.resent ++ [bytes]) ∨
      s'.resent = s.resent ∧ s'.result ≠ .ok
  sure : cfg.bufferAfterEncrypt = false → cfg.Valid →
    Encrypts env s.srtpTransmitSession (rtxPacketOf cfg s sent) →
    rtpDeSerialize (clearBytes (rtxPacketOf cfg s sent)) = .ok (rtxPacketOf cfg s sent) ∧
      ∃ bytes, Handed env s.srtpTransmitSession (rtxPacketOf cfg s sent) bytes ∧ s'.resent = s.resent ++ [bytes]

/-- The packets still in the queue have different numbers. -/
theorem Inv.window_unique (h : Inv cfg seq capacity s) (hcap : capacity ≤ 2 ^ 16) {k k' : ℕ} {sent sent' : Sent}
    (hk : InWindow s rtpSeq k sent) (hk' : InWindow s rtpSeq k' sent') : sent = sent' := by
  have hlt := (List.getElem?_eq_some_iff.mp hk.packet).1
  have hlt' := (List.getElem?_eq_some_iff.mp hk'.packet).1
  have hrecent := hk.recent
  have hrecent' := hk'.recent
  have hcapacity := h.capacity
  obtain ⟨t, us, last, payload, hrtp, hnumber, -⟩ := h.made k sent hk.packet
  obtain ⟨t', us', last', payload', hrtp', hnumber', -⟩ := h.made k' sent' hk'.packet
  have hseq : seq + UInt16.ofNat k = seq + UInt16.ofNat k' := by
    rw [← hnumber, ← hnumber']
    have ht : sent.rtp.header.sequenceNumber = t.videoSequenceNumber := by rw [hrtp]; rfl
    have ht' : sent'.rtp.header.sequenceNumber = t'.videoSequenceNumber := by rw [hrtp']; rfl
    rw [← ht, ← ht', hk.seq, hk'.seq]
  have hmod : k % 2 ^ 16 = k' % 2 ^ 16 := by
    have hnat := congrArg UInt16.toNat (UInt16.add_right_inj seq |>.mp hseq)
    rwa [UInt16.toNat_ofNat', UInt16.toNat_ofNat'] at hnat
  rw [gone] at hrecent hrecent'
  obtain rfl : k = k' := by omega
  exact Option.some.inj (hk.packet.symm.trans hk'.packet)

/-- In every state of a run where the rolling buffer is there and no frame is being written, a retransmission
repeats the packet with the number asked for exactly when it is one of the last `capacity` packets; otherwise
nothing is handed over. -/
theorem resend_window (hcreate : create bitRate durationSec cfg.maxSizePerPacket malloc = .ok rb)
    (hmalloc : Meets (step cfg) Mallocs as (start rb seq rtxSeq twccSeq))
    (hrun : runs (step cfg) as (start rb seq rtxSeq twccSeq) = some s) (hcap : rb.capacity ≤ 2 ^ 16)
    (hinit : s.txRollingBuffer.isInit = true) {s' : Sender} (hs : step cfg s (.resend rtpSeq env) = some s') :
    (∀ k sent, InWindow s rtpSeq k sent → Repeats cfg s env sent s') ∧
      ((∀ k sent, ¬ InWindow s rtpSeq k sent) → s'.resent = s.resent ∧ s'.result = .failRtpPacketNotFound) := by
  have hinv := reached_inv hcreate hmalloc hrun
  obtain ⟨history, hkept⟩ := hinv.kept hinit
  rw [step] at hs
  split_ifs at hs
  obtain rfl := Option.some.inj hs
  have hresent := resend_resent env rtpSeq hkept
  generalize resendSrtpPacket cfg s env rtpSeq = s' at hresent
  cases hresent with
  | missing hno => exact ⟨fun k sent hk => absurd hk (hno k sent), fun _ => ⟨rfl, rfl⟩⟩
  | @repeated heap history k sent hwindow hmode _ =>
    refine ⟨fun k' sent' hk' => ?_, fun hno => absurd hwindow (hno k sent)⟩
    obtain rfl := hinv.window_unique hcap hwindow hk'
    exact ⟨fun _ => rfl, fun hno => absurd (hmode.symm.trans hno) (by decide),
      fun hno => absurd (hmode.symm.trans hno) (by decide)⟩
  | @rtx heap history k sent bytes hwindow hmode hhanded _ =>
    refine ⟨fun k' sent' hk' => ?_, fun hno => absurd hwindow (hno k sent)⟩
    obtain rfl := hinv.window_unique hcap hwindow hk'
    have hmade := hinv.made k sent hwindow.packet
    refine ⟨fun hyes => absurd (hyes.symm.trans hmode) (by decide), fun _ => Or.inl ⟨bytes, hhanded, rfl⟩,
      fun _ hvalid _ => ⟨?_, bytes, hhanded, rfl⟩⟩
    obtain ⟨hfits, hpadding⟩ := rtxPacketOf_fits hmade hvalid s
    exact rtpDeSerialize_clearBytes hfits hpadding rfl
      (List.append_ne_nil_of_left_ne_nil (fun hnil => by
        have hlen := osn_length sent.rtp.header.sequenceNumber
        rw [hnil] at hlen
        exact nomatch hlen) _) rfl
  | @failed heap history k sent out result hwindow hmode _ hcons hbad _ =>
    refine ⟨fun k' sent' hk' => ?_, fun hno => absurd hwindow (hno k sent)⟩
    obtain rfl := hinv.window_unique hcap hwindow hk'
    have hmade := hinv.made k sent hwindow.packet
    refine ⟨fun hyes => absurd (hyes.symm.trans hmode) (by decide), fun _ => Or.inr ⟨rfl, hbad⟩,
      fun _ hvalid hencrypts => ?_⟩
    obtain ⟨hfits, hpadding⟩ := rtxPacketOf_fits hmade hvalid s
    have hok := constructSrtpPacket_ok hfits hpadding rfl (rtxPacketOf_length hmade s) hencrypts out
    exact absurd (hcons.symm.trans hok) hbad

/-- The second packet has number 0, after 65535. -/
theorem resend_window_sample : ∃ s', step sampleConfig sampleSender (.resend 0 sampleEnv) = some s' ∧
    sampleSender.packets.map (fun sent => sent.rtp.header.sequenceNumber) = [65535, 0] ∧
    ∀ k sent, InWindow sampleSender 0 k sent → Repeats sampleConfig sampleSender sampleEnv sent s' :=
  have h : (step sampleConfig sampleSender (.resend 0 sampleEnv)).isSome = true := by decide +kernel
  ⟨_, (Option.some_get h).symm, by decide +kernel,
    (resend_window create_sample (sampleFrame_mallocs _) runs_sample (by decide) (by decide +kernel)
      (Option.some_get h).symm).1⟩

end IotcRa8p1.Media.VideoSender
