import IotcRa8p1.Media.VideoSenderRuns

/-!
# A frame from sender to receiver

While the calls outside do what they should, the turns after `PeerConnectionH264Helper_WriteH264Frame` send one
packet for each payload and then end the frame.  A peer that undoes the encryption reads the packets, and a
depacketizer makes the stream of units of their payloads.
-/

namespace IotcRa8p1.Media.VideoSender

open H264 Rtp PktQueue Rolling Machine

/-! ### The payloads of the loop -/

/-- What `H264Packetizer_GetPacket` gives, call by call, for buffers of one size. -/
inductive Drains (size : ℕ) : PacketizerContext → List H264Packet → Prop
  | done {h264 : PacketizerContext} : (getPacket h264 size).1 = .noMorePackets → Drains size h264 []
  | more {h264 h264' : PacketizerContext} {payload : H264Packet} {payloads : List H264Packet} :
      getPacket h264 size = (.ok, h264', payload) → (h264'.naluCount = 0 ↔ payloads = []) →
      Drains size h264' payloads → Drains size h264 (payload :: payloads)

theorem getPacket_noMorePackets {h264 : PacketizerContext} {size : ℕ} (hsize : size ≠ 0) :
    (getPacket h264 size).1 = .noMorePackets ↔ h264.naluCount = 0 := by
  rw [getPacket, if_neg hsize]
  by_cases hcount : h264.naluCount = 0
  · rw [if_pos hcount]
    exact ⟨fun _ => hcount, fun _ => rfl⟩
  · rw [if_neg hcount]
    refine ⟨fun hno => ?_, fun hyes => absurd hyes hcount⟩
    cases hslot : h264.naluArray h264.tailIndex with
    | none =>
      rw [hslot] at hno
      cases hno
    | some nalu =>
      rw [hslot] at hno
      dsimp only at hno
      split_ifs at hno

theorem drains_of_drain {size : ℕ} (hsize : size ≠ 0) (n : ℕ) (h264 : PacketizerContext)
    (h : (drain (List.replicate n size) h264).2.1 = .noMorePackets) :
    Drains size h264 (drain (List.replicate n size) h264).1 := by
  induction n generalizing h264 with
  | zero => cases h
  | succ n ih =>
    rw [List.replicate_succ] at h ⊢
    by_cases hok : (getPacket h264 size).1 = .ok
    · have hget : getPacket h264 size = (.ok, (getPacket h264 size).2) := Prod.ext hok rfl
      rw [drain_ok hget] at h ⊢
      refine .more hget ?_ (ih _ h)
      rw [← getPacket_noMorePackets hsize]
      cases n with
      | zero => cases h
      | succ n =>
        rw [List.replicate_succ] at h ⊢
        by_cases hnext : (getPacket (getPacket h264 size).2.1 size).1 = .ok
        · rw [drain, if_pos hnext, hnext]
          constructor <;> intro hend <;> cases hend
        · rw [drain, if_neg hnext] at h ⊢
          exact ⟨fun _ => rfl, fun _ => h⟩
    · rw [drain, if_neg hok] at h ⊢
      exact .done h

/-! ### The turns of a frame -/

variable {cfg : Config} {unprotect : List UInt8 → Option (List UInt8)} {s : Sender} {seq : UInt16} {capacity : ℕ}

/-- The calls of a turn do what they should: encryption adds at most 180 bytes and is undone by `unprotect`. -/
structure Works (unprotect : List UInt8 → Option (List UInt8)) (env : Env) : Prop where
  malloc : env.malloc ≠ none
  mutex : env.mutex = true
  protect : ∀ clear, clear.length ≤ 1220 → ∃ srtp, env.protect clear = some srtp ∧ srtp.length ≤ rtpPacketMaxLength
  unprotect : ∀ clear srtp, env.protect clear = some srtp → unprotect srtp = some clear
  send : env.send = true

/-- The peer's side of a packet. -/
def receive (unprotect : List UInt8 → Option (List UInt8)) (bytes : List UInt8) : Option RtpPacket :=
  (unprotect bytes).bind fun clear => (rtpDeSerialize clear).toOption

/-- The packets carry the payloads under consecutive numbers, the last one with the marker, and the peer reads them
as they were sent. -/
inductive Delivered (cfg : Config) (unprotect : List UInt8 → Option (List UInt8)) (presentationUs : UInt64) :
    UInt16 → List H264Packet → List Sent → Prop
  | nil {number : UInt16} : Delivered cfg unprotect presentationUs number [] []
  | cons {t : Sender} {payload : H264Packet} {payloads : List H264Packet} {sent : Sent} {sents : List Sent} :
      sent.rtp = rtpPacketOf cfg t presentationUs (payloads = []) payload →
      receive unprotect sent.bytes = some sent.rtp →
      Delivered cfg unprotect presentationUs (t.videoSequenceNumber + 1) payloads sents →
      Delivered cfg unprotect presentationUs t.videoSequenceNumber (payload :: payloads) (sent :: sents)

theorem Delivered.payloads {presentationUs : UInt64} {number : UInt16} {payloads : List H264Packet}
    {sents : List Sent} (h : Delivered cfg unprotect presentationUs number payloads sents) :
    (sents.map fun sent => (receive unprotect sent.bytes).bind (·.payload)) = payloads.map some := by
  induction h with
  | nil => rfl
  | cons hrtp hreceive _ ih =>
    rw [List.map_cons, List.map_cons, ih, hreceive, hrtp]
    rfl

/-- The packet of a turn in which the calls work. -/
theorem Packet.received {env : Env} {w : Writer} {h264 : PacketizerContext} {sent : Sent}
    (h : Packet cfg s w env h264 sent) (hvalid : cfg.Valid) (hsession : s.srtpTransmitSession = true)
    (hworks : Works unprotect env) (hne : sent.rtp.payload ≠ some []) :
    receive unprotect sent.bytes = some sent.rtp := by
  obtain ⟨payload, -, -, hrtp⟩ := h.payload
  have hhanded := h.handed
  rw [Handed, if_pos hsession] at hhanded
  have hfits : HeaderFits sent.rtp.header := by
    rw [hrtp]
    exact rtpPacketOf_fits cfg s w.presentationUs (h264.naluCount = 0) payload hvalid.1
  have hpayload : sent.rtp.payload = some payload := by rw [hrtp]; rfl
  have hread := rtpDeSerialize_clearBytes hfits (by rw [hrtp]; rfl) hpayload
    (fun hnil => hne (hpayload.trans (congrArg some hnil))) (by rw [hrtp]; rfl)
  rw [receive, hworks.unprotect _ _ hhanded, Option.bind_some, hread]
  rfl

theorem step_turn (cfg : Config) (hfault : s.heap.fault = false) {w : Writer} (hw : s.writing = some w) (env : Env) :
    step cfg s (.turn env) = some (turn cfg s env w) := by
  rw [step, hw]
  exact if_neg (by rw [hfault]; decide)

/-- The turns send the payloads and end the frame. -/
theorem turns_deliver {payloads : List H264Packet} {w : Writer} (hdrains : Drains cfg.payloadRoom w.h264 payloads)
    (hvalid : cfg.Valid) (hne : ∀ payload ∈ payloads, payload ≠ []) (h : Inv cfg seq capacity s)
    (hw : s.writing = some w) (hinit : s.txRollingBuffer.isInit = true) (hsession : s.srtpTransmitSession = true)
    {envs : List Env} (hlength : envs.length = payloads.length + 1) (hworks : ∀ env ∈ envs, Works unprotect env) :
    ∃ s' sents, runs (step cfg) (envs.map .turn) s = some s' ∧ s'.writing = none ∧ s'.result = .ok ∧
      s'.packets = s.packets ++ sents ∧
      Delivered cfg unprotect w.presentationUs s.videoSequenceNumber payloads sents := by
  induction payloads generalizing s w envs with
  | nil =>
    obtain ⟨env, rfl⟩ := List.length_eq_one_iff.mp hlength
    have henv := hworks env List.mem_cons_self
    obtain ⟨history, hkept⟩ := h.kept hinit
    obtain ⟨memory, hmemory⟩ := Option.ne_none_iff_exists'.mp henv.malloc
    have hturned := turn_turned env hkept (h.writer w hw) hmemory
    have hrun : runs (step cfg) ([env].map .turn) s = some (turn cfg s env w) := by
      rw [List.map_singleton, runs_cons, step_turn cfg h.fault hw]
      rfl
    rw [hrun]
    have hdone : (getPacket w.h264 cfg.payloadRoom).1 = .noMorePackets := by
      cases hdrains with
      | done hdone => exact hdone
    have hno {h264 : PacketizerContext} {payload : List UInt8} :
        ¬ getPacket w.h264 cfg.payloadRoom = (.ok, h264, payload) := by
      intro hget
      rw [hget] at hdone
      exact nomatch hdone
    generalize turn cfg s env w = s' at hturned
    cases hturned with
    | ended _ _ => exact ⟨_, [], rfl, rfl, rfl, (List.append_nil _).symm, .nil⟩
    | failed hget => exact absurd hget hno
    | sent hpacket =>
      obtain ⟨payload, hget, -⟩ := hpacket.payload
      exact absurd hget hno
    | lost hpacket =>
      obtain ⟨payload, hget, -⟩ := hpacket.payload
      exact absurd hget hno
  | cons payload payloads ih =>
    cases hdrains with
    | @more _ h264' _ _ hget hlast hrest =>
      cases envs with
      | nil => exact nomatch hlength
      | cons env envs =>
        have henv := hworks env List.mem_cons_self
        obtain ⟨history, hkept⟩ := h.kept hinit
        obtain ⟨memory, hmemory⟩ := Option.ne_none_iff_exists'.mp henv.malloc
        have hturned := turn_turned env hkept (h.writer w hw) hmemory
        have hstep := step_turn cfg h.fault hw env
        have hinv := step_inv h (show Mallocs s (.turn env) from henv.malloc) hstep
        rw [List.map_cons, runs_cons, hstep, Option.bind_some]
        generalize turn cfg s env w = s₁ at hturned hinv
        cases hturned with
        | ended hdone =>
          rw [hget] at hdone
          exact nomatch hdone
        | @failed _ _ _ payload' out _ hget' hfit _ hcons hbad =>
          obtain ⟨-, rfl, rfl⟩ : _ ∧ h264' = _ ∧ payload = payload' := by
            rw [hget, Prod.mk.injEq, Prod.mk.injEq] at hget'
            exact hget'
          have hheader := rtpPacketOf_headerBytes cfg s w.presentationUs (h264'.naluCount = 0) payload
          have hroom := cfg.payloadRoom_bounds
          have hclear : (clearBytes (rtpPacketOf cfg s w.presentationUs (h264'.naluCount = 0) payload)).length ≤
              1220 := by
            rw [clearBytes, List.length_append]
            show _ + payload.length ≤ 1220
            omega
          have hencrypts : Encrypts env s.srtpTransmitSession
              (rtpPacketOf cfg s w.presentationUs (h264'.naluCount = 0) payload) :=
            ⟨henv.mutex, fun _ => henv.protect _ hclear⟩
          have hok := constructSrtpPacket_ok
            (rtpPacketOf_fits cfg s w.presentationUs (h264'.naluCount = 0) payload hvalid.1) rfl rfl
            (Nat.le_trans hclear (by decide)) hencrypts out
          exact absurd (hcons.symm.trans hok) hbad
        | @sent rb heap history h264'' sent hpacket _ _ hkept' =>
          obtain ⟨payload', hget', -, hrtp⟩ := hpacket.payload
          obtain ⟨-, rfl, rfl⟩ : _ ∧ h264' = h264'' ∧ payload = payload' := by
            rw [hget, Prod.mk.injEq, Prod.mk.injEq] at hget'
            exact hget'
          have hsome : sent.rtp.payload ≠ some [] := by
            rw [hrtp]
            exact fun hnil => hne payload List.mem_cons_self (Option.some.inj hnil)
          have hreceive := hpacket.received hvalid hsession henv hsome
          rw [decide_eq_decide.mpr hlast] at hrtp
          obtain ⟨s', sents, hrun, hwriting, hresult, hpackets, hdelivered⟩ :=
            ih (s := { withPacket cfg s rb heap sent with writing := some (w.next h264' sent) })
              (w := w.next h264' sent) hrest (fun p hp => hne p (List.mem_cons_of_mem _ hp)) hinv rfl
              hkept'.keeps.isInit hsession (Nat.succ.inj hlength) (fun e he => hworks e (List.mem_cons_of_mem _ he))
          refine ⟨s', sent :: sents, hrun, hwriting, hresult, ?_, .cons hrtp hreceive hdelivered⟩
          rw [hpackets]
          exact List.append_assoc _ _ _
        | lost hpacket hsend =>
          rw [henv.send] at hsend
          contradiction

/-! ### The frame -/

variable {rb : RollingBuffer} {bitRate durationSec : UInt32} {malloc : Bool} {rtxSeq twccSeq : UInt16}
  {as : List Action} {units : List (Annexb.Code × Nalu)} {d : DepacketizerContext} {slots : ℕ → Option H264Packet}
  {room : ℕ}

/-- In any state of a run where no frame is being written, the session and the rolling buffer are there and the
calls work: a frame of well-formed units is sent in some number of packets, whatever was sent before and however
each packet is encrypted; the peer reads the payloads back, and a depacketizer that has room makes of them the
units, each behind a start code of four bytes. -/
theorem frame_delivered (hcreate : create bitRate durationSec cfg.maxSizePerPacket malloc = .ok rb)
    (hmalloc : Meets (step cfg) Mallocs as (start rb seq rtxSeq twccSeq))
    (hrun : runs (step cfg) as (start rb seq rtxSeq twccSeq) = some s) (hvalid : cfg.Valid)
    (hidle : s.writing = none) (hinit : s.txRollingBuffer.isInit = true) (hsession : s.srtpTransmitSession = true)
    (hframed : Framed (Annexb.join units) [] units maxNalusInAFrame) (hwell : ∀ u ∈ units, WellFormed u.2)
    (naluArray : ℕ → Option Nalu) (presentationUs : UInt64) (hdinit : depacketizerInit slots room = some d) :
    ∃ payloads, payloads ≠ [] ∧ (∀ envs : List Env, envs.length = payloads.length + 1 →
      (∀ env ∈ envs, Works unprotect env) →
      ∃ s' sents, runs (step cfg) (.writeFrame naluArray (some (Annexb.join units)) presentationUs :: envs.map .turn) s =
          some s' ∧ s'.writing = none ∧ s'.result = .ok ∧ s'.packets = s.packets ++ sents ∧
        Delivered cfg unprotect presentationUs s.videoSequenceNumber payloads sents ∧
        (sents.map fun sent => (receive unprotect sent.bytes).bind (·.payload)) = payloads.map some) ∧
      (payloads.length ≤ room → (addPackets d payloads).1 = .ok ∧
        ∀ size, (annexb (units.map Prod.snd)).length + 4 < size →
          ∃ d', getFrame (addPackets d payloads).2 size = (.ok, d', annexb (units.map Prod.snd))) := by
  have h := reached_inv hcreate hmalloc hrun
  obtain ⟨h3, h1200⟩ := cfg.payloadRoom_bounds
  obtain ⟨h264, hpinit⟩ : ∃ h264, packetizerInit naluArray maxNalusInAFrame = some h264 := ⟨_, rfl⟩
  obtain ⟨hnew, hlength⟩ := packetizerInit_stored hpinit
  obtain ⟨hadd, hstored⟩ := addFrame_framed hnew (hlength ▸ hframed)
  have hwell' : ∀ n ∈ units.map Prod.snd, WellFormed n := by
    intro n hn
    obtain ⟨u, hu, rfl⟩ := List.mem_map.mp hn
    exact hwell u hu
  have hsizes : Sizes (List.replicate (bytes (units.map Prod.snd) + 1) cfg.payloadRoom) := by
    intro size hsize
    rw [List.eq_of_mem_replicate hsize]
    exact ⟨h3, by omega⟩
  obtain ⟨hend, hcarries⟩ := (drain_all hsizes hwell').1 _ hstored.toQueued
    (by rw [List.length_replicate]; exact Nat.lt_succ_self _)
  have hdrains := drains_of_drain (by omega) _ _ hend
  generalize (drain (List.replicate (bytes (units.map Prod.snd) + 1) cfg.payloadRoom)
    (addFrame h264 (some (Annexb.join units))).2).1 = payloads at hcarries hdrains
  have hne : units.map Prod.snd ≠ [] := fun hnil => hframed.units_ne (List.map_eq_nil_iff.mp hnil)
  refine ⟨payloads, fun hnil => ?_, fun envs hcount hworks => ?_, fun hroom => ?_⟩
  · exact hne (hcarries.units_nil hnil)
  · have hwrite : step cfg s (.writeFrame naluArray (some (Annexb.join units)) presentationUs) =
        some { s with writing := some ⟨(addFrame h264 (some (Annexb.join units))).2, presentationUs, 0, 0⟩ } := by
      rw [step, if_neg (by rw [h.fault, hidle]; decide), writeH264Frame, hpinit]
      dsimp only
      rw [show addFrame h264 (some (Annexb.join units)) =
        (.ok, (addFrame h264 (some (Annexb.join units))).2) from Prod.ext hadd rfl]
    have hinv := step_inv h (show Mallocs s (.writeFrame naluArray _ presentationUs) from trivial) hwrite
    obtain ⟨s', sents, hrun', hwriting, hresult, hpackets, hdelivered⟩ :=
      turns_deliver hdrains hvalid hcarries.ne_nil hinv rfl hinit hsession hcount hworks
    refine ⟨s', sents, ?_, hwriting, hresult, hpackets, hdelivered, hdelivered.payloads⟩
    rw [runs_cons, hwrite]
    exact hrun'
  · obtain ⟨hfilled, hdlength⟩ := depacketizerInit_filled hdinit
    obtain ⟨hok, hall⟩ := addPackets_filled hfilled hcarries.ne_nil
      (by rw [List.length_nil, Nat.zero_add, hdlength]; exact hroom)
    refine ⟨hok, fun size hsize => ?_⟩
    have hget := getFrame_eq (.fresh hall.toLoaded hall.start hcarries) hne size
    rwa [if_pos hsize] at hget

/-- The encryption of the sample undone. -/
theorem works_sample : Works (fun srtp => some srtp.dropLast) sampleEnv where
  malloc := nofun
  mutex := rfl
  protect := by
    intro clear hclear
    refine ⟨clear ++ [0xAA], rfl, ?_⟩
    rw [List.length_append]
    show clear.length + 1 ≤ 1400
    omega
  unprotect := by
    intro clear srtp hsrtp
    rw [← Option.some.inj hsrtp, List.dropLast_concat]
  send := rfl

theorem frame_delivered_sample : ∃ n s', runs (step sampleConfig)
    (.writeFrame (fun _ => none) (some (Annexb.join [(.four, [0x67, 1]), (.four, [0x65, 2, 3])])) 2000000 ::
      List.replicate n (.turn sampleEnv)) sampleSender = some s' ∧ s'.writing = none ∧ s'.result = .ok :=
  have ⟨payloads, _, h, _⟩ := @frame_delivered sampleConfig (fun srtp => some srtp.dropLast)
    _ _ _ _ _ _ _ _ _ _ _ _ _ create_sample (sampleFrame_mallocs _) runs_sample
    (by decide) (by decide +kernel) (by decide +kernel) (by decide +kernel)
    (show Framed (Annexb.join [(.four, [0x67, 1]), (.four, [0x65, 2, 3])]) []
      [(.four, [0x67, 1]), (.four, [0x65, 2, 3])] maxNalusInAFrame by decide) (by decide) (fun _ => none) 2000000
    (show depacketizerInit (fun _ => none) 4 = some fourSlots from rfl)
  have ⟨s', _, hrun, hwriting, hresult, _⟩ := h (List.replicate (payloads.length + 1) sampleEnv) List.length_replicate
    fun env henv => List.eq_of_mem_replicate henv ▸ works_sample
  ⟨payloads.length + 1, s', by rwa [List.map_replicate] at hrun, hwriting, hresult⟩

end IotcRa8p1.Media.VideoSender
