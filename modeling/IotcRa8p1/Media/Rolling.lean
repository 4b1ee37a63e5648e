import IotcRa8p1.Lib.Heaps
import IotcRa8p1.Media.PktQueue
import IotcRa8p1.Media.Rtp

/-!
# The packets kept for retransmission (`peer_connection_rolling_buffer.c`)

Every packet is a block of its own on the FreeRTOS heap, the queue keeps the pointers.  The block that makes the
queue run over is released by the one who puts in the next.

The heap remembers in `fault` that a NULL pointer or a released block was used, or the bytes behind a block.
A result that no modelled call gives is left out of `PeerConnectionResult`, and so is the array behind the
queue, a block that only `PeerConnectionRollingBuffer_Create` and `PeerConnectionRollingBuffer_Free` touch.
-/

namespace IotcRa8p1.Media.Rolling

open Heaps Rtp PktQueue

/-- `PeerConnectionResult_t` -/
inductive PeerConnectionResult where
  | ok
  | badParameter
  | failPacketInfoNoEnoughMemory
  | failRtpPacketQueueInit
  | failRtpPacketQueueRetrieve
  | failRtpPacketEnqueue
  | failPacketizerInit
  | failPacketizerAddFrame
  | failPacketizerGetPacket
  | failTakeSenderMutex
  | failTakeSrtpMutex
  | failRtpSerialize
  | failEncryptSrtpRtpPacket
  | failIceControllerSendRtpPacket
  | failIceControllerResendRtpPacket
  | failRtpPacketNotFound
  deriving DecidableEq, Repr

/-- `PeerConnectionRollingBufferPacket_t` with the buffer behind it; `twccExtensionPayload` is in the header, where
the extension points to it. -/
structure RollingBufferPacket where
  rtpPacket : RtpPacket
  pPacketBuffer : List UInt8
  packetBufferLength : ℕ
  deriving DecidableEq, Repr

/-! ### The heap -/

/-- The blocks and what they hold. -/
structure Heap where
  blocks : Blocks Unit
  packet : ℕ → RollingBufferPacket
  fault : Bool

/-- `Heaps.Live`, decided. -/
def isLive (blocks : Blocks Unit) (p : ℕ) : Bool := (blocks[p]?.map fun b => decide (b.frees = [])).getD false

theorem isLive_iff {blocks : Blocks Unit} {p : ℕ} : isLive blocks p = true ↔ Live blocks p := by
  rw [isLive, Live]
  cases blocks[p]? with
  | none => simp
  | some b => simp

/-- A read of a block. -/
def Heap.touch (h : Heap) (p : ℕ) : Heap := { h with fault := h.fault || !isLive h.blocks p }

/-- A write to a block, which must not grow by it. -/
def Heap.store (h : Heap) (p : ℕ) (packet : RollingBufferPacket) : Heap :=
  { h with
    packet := Function.update h.packet p packet
    fault := h.fault || !isLive h.blocks p ||
      decide ((h.packet p).pPacketBuffer.length < packet.pPacketBuffer.length) }

/-- `vPortFree` -/
def Heap.release (h : Heap) (p : ℕ) : Heap :=
  { h with
    blocks := free h.blocks () (some p)
    fault := h.fault || !isLive h.blocks p }

/-- So many bytes of memory. -/
def bytesOf (memory : ℕ → UInt8) (n : ℕ) : List UInt8 := (List.range n).map memory

/-- `RtpPacket_t` after `memset`. -/
def zeroPacket : RtpPacket := ⟨⟨false, false, none, 0, 0, 0, 0, 0, []⟩, none, 0⟩

/-! ### The rolling buffer -/

/-- `PeerConnectionRollingBuffer_t` -/
structure RollingBuffer where
  isInit : Bool
  packetQueue : RtpPacketQueue
  maxSizePerPacket : ℕ
  capacity : ℕ

/-- `PeerConnectionRollingBuffer_Create`, with the `malloc` of the array. -/
def create (rollingbufferBitRate rollingbufferDurationSec : UInt32) (maxSizePerPacket : ℕ) (malloc : Bool) :
    Except PeerConnectionResult RollingBuffer :=
  if rollingbufferBitRate = 0 ∨ rollingbufferDurationSec = 0 ∨ maxSizePerPacket = 0 then .error .badParameter
  else
    let capacity := (rollingbufferDurationSec * rollingbufferBitRate / 8).toNat / maxSizePerPacket
    if malloc = false then .error .failPacketInfoNoEnoughMemory
    else
      match init capacity with
      | some packetQueue => .ok ⟨true, packetQueue, maxSizePerPacket, capacity⟩
      | none => .error .failRtpPacketQueueInit

variable (rb : RollingBuffer) (heap : Heap)

/-- Initialised, with room for packets. -/
def ready : Prop := rb.isInit = true ∧ rb.capacity ≠ 0

instance : Decidable (ready rb) := inferInstanceAs (Decidable (_ ∧ _))

/-- `PeerConnectionRollingBuffer_GetRtpSequenceBuffer`; `malloc` is what the new block holds, `none` for a NULL
pointer, which is written through. -/
def getRtpSequenceBuffer (malloc : Option (ℕ → UInt8)) : PeerConnectionResult × Option ℕ × Heap :=
  if ready rb then
    match malloc with
    | some memory =>
      (.ok, some heap.blocks.length,
        { heap with
          blocks := alloc heap.blocks ()
          packet := Function.update heap.packet heap.blocks.length
            ⟨zeroPacket, bytesOf memory rb.maxSizePerPacket, rb.maxSizePerPacket⟩ })
    | none => (.ok, none, { heap with fault := true })
  else (.badParameter, none, heap)

/-- `PeerConnectionRollingBuffer_DiscardRtpSequenceBuffer` -/
def discardRtpSequenceBuffer (pPacket : Option ℕ) : Heap :=
  match pPacket with
  | some p => if rb.isInit = true then heap.release p else heap
  | none => heap

/-- `PeerConnectionRollingBuffer_SearchRtpSequenceBuffer` -/
def searchRtpSequenceBuffer (rtpSeq : UInt16) : PeerConnectionResult × Option ℕ × Heap :=
  if ready rb then
    match retrieve rb.packetQueue rtpSeq with
    | (.ok, some info) =>
      match info.pSerializedRtpPacket with
      | some p =>
        (.ok, some p, heap.store p { heap.packet p with packetBufferLength := info.serializedPacketLength })
      | none => (.ok, none, { heap with fault := true })
    | _ => (.failRtpPacketQueueRetrieve, none, heap)
  else (.badParameter, none, heap)

/-- `PeerConnectionRollingBuffer_SetPacket` -/
def setPacket (rtpSeq : UInt16) (p : ℕ) : PeerConnectionResult × RollingBuffer × Heap :=
  if ready rb then
    let heap := heap.touch p
    match forceEnqueue rb.packetQueue ⟨rtpSeq, some p, (heap.packet p).packetBufferLength⟩ with
    | (result, deletedRtpPacket, packetQueue) =>
      let rb := { rb with packetQueue := packetQueue }
      if result ≠ .ok ∧ result ≠ .packetDeleted then (.failRtpPacketEnqueue, rb, heap)
      else (.ok, rb, discardRtpSequenceBuffer rb heap (deletedRtpPacket.bind (·.pSerializedRtpPacket)))
  else (.badParameter, rb, heap)

theorem packetCount_dequeue {q q' : RtpPacketQueue} {info : Option RtpPacketInfo}
    (h : dequeue q = (.ok, info, q')) : q'.packetCount < q.packetCount := by
  rw [dequeue, peek] at h
  by_cases hempty : isQueueEmpty q
  · rw [if_pos hempty] at h
    cases h
  · rw [if_neg hempty] at h
    obtain rfl := (Prod.mk.inj (Prod.mk.inj h).2).2
    show q.packetCount - 1 < q.packetCount
    have hne : q.packetCount ≠ 0 := hempty
    omega

/-- The loop of `PeerConnectionRollingBuffer_Free`. -/
def freeLoop (q : RtpPacketQueue) (heap : Heap) : RtpPacketQueue × Heap :=
  match _h : dequeue q with
  | (.ok, info, q') =>
    freeLoop q' (match info.bind (·.pSerializedRtpPacket) with
      | some p => heap.release p
      | none => heap)
  | (_, _, q') => (q', heap)
termination_by q.packetCount
decreasing_by exact packetCount_dequeue _h

/-- `PeerConnectionRollingBuffer_Free` -/
def freeRollingBuffer : RollingBuffer × Heap :=
  if rb.isInit = true then
    let r := freeLoop rb.packetQueue heap
    ({ rb with isInit := false, packetQueue := r.1 }, r.2)
  else (rb, heap)

/-! ### Who owns the blocks -/

variable {rb heap} {history : List RtpPacketInfo} {taken : ℕ} {info : RtpPacketInfo}

/-- The pointers of the queue, by the number of the packet. -/
def held (history : List RtpPacketInfo) (taken k : ℕ) : Option ℕ :=
  if taken ≤ k then history[k]?.bind (·.pSerializedRtpPacket) else none

/-- The queue holds the packets from number `taken` on, their blocks are live and every other one is released. -/
structure Keeps (rb : RollingBuffer) (heap : Heap) (history : List RtpPacketInfo) (taken : ℕ) : Prop where
  isInit : rb.isInit = true
  capacity : rb.capacity = rb.packetQueue.rtpPacketInfoArrayLength
  rings : Rings rb.packetQueue history taken
  good : Pointers.Good () ⟨heap.blocks, held history taken⟩
  filled : ∀ info ∈ history, info.pSerializedRtpPacket ≠ none
  fault : heap.fault = false

theorem Keeps.ready (h : Keeps rb heap history taken) : ready rb := by
  have hroom := h.rings.room
  have hcapacity := h.capacity
  exact ⟨h.isInit, by omega⟩

theorem held_ge {k : ℕ} (h : history.length ≤ k) : held history taken k = none := by
  rw [held, List.getElem?_eq_none h]
  split_ifs <;> rfl

/-- A new name for the block that joins the queue. -/
theorem held_concat (hle : taken ≤ history.length) (info : RtpPacketInfo) :
    Function.update (held history taken) history.length info.pSerializedRtpPacket =
      held (history ++ [info]) taken := by
  funext k
  rcases Nat.lt_trichotomy k history.length with hlt | rfl | hgt
  · rw [Function.update_of_ne (Nat.ne_of_lt hlt), held, held, List.getElem?_append_left hlt]
  · rw [Function.update_self, held, if_pos hle, List.getElem?_concat_length]
    rfl
  · rw [Function.update_of_ne (Nat.ne_of_gt hgt), held_ge (Nat.le_of_lt hgt), held_ge]
    rw [List.length_append]
    exact hgt

theorem held_succ (history : List RtpPacketInfo) (taken : ℕ) :
    Function.update (held history taken) taken none = held history (taken + 1) := by
  funext k
  rcases Nat.lt_trichotomy k taken with hlt | rfl | hgt
  · rw [Function.update_of_ne (Nat.ne_of_lt hlt), held, held, if_neg (Nat.not_le.mpr hlt), if_neg (by omega)]
  · rw [Function.update_self, held, if_neg (by omega)]
  · rw [Function.update_of_ne (Nat.ne_of_gt hgt), held, held, if_pos (Nat.le_of_lt hgt),
      if_pos (Nat.succ_le_of_lt hgt)]

/-- The pointers while a block not in the queue yet has the next number. -/
abbrev withNew (history : List RtpPacketInfo) (taken p : ℕ) : ℕ → Option ℕ :=
  Function.update (held history taken) history.length (some p)

/-- The same while somebody fills a new block. -/
structure Fills (rb : RollingBuffer) (heap : Heap) (history : List RtpPacketInfo) (taken p : ℕ) : Prop where
  isInit : rb.isInit = true
  capacity : rb.capacity = rb.packetQueue.rtpPacketInfoArrayLength
  rings : Rings rb.packetQueue history taken
  good : Pointers.Good () ⟨heap.blocks, withNew history taken p⟩
  filled : ∀ info ∈ history, info.pSerializedRtpPacket ≠ none
  fault : heap.fault = false

theorem Fills.live {p : ℕ} (h : Fills rb heap history taken p) : Live heap.blocks p :=
  h.good.owns.live (x := history.length) (Function.update_self _ _ _)

theorem Fills.isLive {p : ℕ} (h : Fills rb heap history taken p) : isLive heap.blocks p = true :=
  isLive_iff.mpr h.live

theorem Fills.ready {p : ℕ} (h : Fills rb heap history taken p) : Rolling.ready rb := by
  have hroom := h.rings.room
  have hcapacity := h.capacity
  exact ⟨h.isInit, by omega⟩

/-- The block is not one of the queue's. -/
theorem Fills.ne {p k i : ℕ} (h : Fills rb heap history taken p) (hk : held history taken k = some i) : i ≠ p := by
  rintro rfl
  have hlt : k < history.length := by
    by_contra hge
    rw [held_ge (Nat.not_lt.mp hge)] at hk
    exact nomatch hk
  have hne := Nat.ne_of_lt hlt
  exact hne (h.good.owns.uniq (x := k) (y := history.length)
    (by show withNew history taken i k = _; rw [withNew, Function.update_of_ne hne, hk]) (Function.update_self _ _ _))

/-- `PeerConnectionRollingBuffer_GetRtpSequenceBuffer` gives a new block. -/
theorem Keeps.getRtpSequenceBuffer (h : Keeps rb heap history taken) (memory : ℕ → UInt8) :
    ∃ heap', getRtpSequenceBuffer rb heap (some memory) = (.ok, some heap.blocks.length, heap') ∧
      Fills rb heap' history taken heap.blocks.length ∧
      heap'.packet = Function.update heap.packet heap.blocks.length
        ⟨zeroPacket, bytesOf memory rb.maxSizePerPacket, rb.maxSizePerPacket⟩ := by
  have hgood : Pointers.Good () ⟨alloc heap.blocks (), withNew history taken heap.blocks.length⟩ :=
    h.good.keep (x := history.length) (held_ge (Nat.le_refl _)) true
  rw [Rolling.getRtpSequenceBuffer, if_pos h.ready]
  exact ⟨_, rfl, ⟨h.isInit, h.capacity, h.rings, hgood, h.filled, h.fault⟩, rfl⟩

/-- A write to a live block that keeps to its length. -/
theorem Heap.store_fault {p : ℕ} {packet : RollingBufferPacket} (hfault : heap.fault = false)
    (hp : isLive heap.blocks p = true)
    (hlength : packet.pPacketBuffer.length ≤ (heap.packet p).pPacketBuffer.length) :
    (heap.store p packet).fault = false := by
  show (heap.fault || !isLive heap.blocks p || decide _) = false
  rw [hfault, hp, decide_eq_false (Nat.not_lt.mpr hlength)]
  rfl

/-- A write to the new block. -/
theorem Fills.store {p : ℕ} (h : Fills rb heap history taken p) {packet : RollingBufferPacket}
    (hlength : packet.pPacketBuffer.length ≤ (heap.packet p).pPacketBuffer.length) :
    Fills rb (heap.store p packet) history taken p :=
  ⟨h.isInit, h.capacity, h.rings, h.good, h.filled, Heap.store_fault h.fault h.isLive hlength⟩

/-- `PeerConnectionRollingBuffer_DiscardRtpSequenceBuffer` of the new block. -/
theorem Fills.discard {p : ℕ} (h : Fills rb heap history taken p) :
    Keeps rb (discardRtpSequenceBuffer rb heap (some p)) history taken ∧
      (discardRtpSequenceBuffer rb heap (some p)).packet = heap.packet := by
  have hrelease := h.good.release history.length
  have hself : withNew history taken p history.length = some p := Function.update_self _ _ _
  have hback : Function.update (withNew history taken p) history.length none = held history taken := by
    rw [withNew, Function.update_idem]
    exact Function.update_eq_self_iff.mpr (held_ge (Nat.le_refl _)).symm
  have hgood : Pointers.Good () ⟨free heap.blocks () (some p), held history taken⟩ := by
    simp only [Pointers.release, hself, hback] at hrelease
    exact hrelease
  simp only [discardRtpSequenceBuffer, if_pos h.isInit]
  refine ⟨⟨h.isInit, h.capacity, h.rings, hgood, h.filled, ?_⟩, rfl⟩
  show (heap.fault || !Rolling.isLive heap.blocks p) = false
  rw [h.fault, h.isLive]
  rfl

theorem isLive_of_held {k p : ℕ} (h : Keeps rb heap history taken) (hk : held history taken k = some p) :
    Rolling.isLive heap.blocks p = true :=
  isLive_iff.mpr (h.good.owns.live (x := k) hk)

/-- `PeerConnectionRollingBuffer_SetPacket` puts the new block into the queue; with a full queue the oldest one is
released. -/
theorem Fills.setPacket {p : ℕ} (h : Fills rb heap history taken p) (rtpSeq : UInt16) :
    ∃ rb' heap', setPacket rb heap rtpSeq p = (.ok, rb', heap') ∧
      Keeps rb' heap' (history ++ [⟨rtpSeq, some p, (heap.packet p).packetBufferLength⟩])
        (makeRoom rb.packetQueue taken) ∧
      heap'.packet = heap.packet ∧ rb'.capacity = rb.capacity ∧ rb'.maxSizePerPacket = rb.maxSizePerPacket := by
  obtain ⟨q', hq', hrings, hlength⟩ :=
    h.rings.forceEnqueue ⟨rtpSeq, some p, (heap.packet p).packetBufferLength⟩
  have hfault : (heap.fault || !Rolling.isLive heap.blocks p) = false := by
    rw [h.fault, h.isLive]
    rfl
  have hgood := h.good
  rw [withNew, held_concat h.rings.le ⟨rtpSeq, some p, (heap.packet p).packetBufferLength⟩] at hgood
  have hfilled : ∀ info ∈ history ++ [⟨rtpSeq, some p, (heap.packet p).packetBufferLength⟩],
      info.pSerializedRtpPacket ≠ none := by
    intro info hinfo
    rcases List.mem_append.mp hinfo with hold | hnew
    · exact h.filled info hold
    · rw [List.mem_singleton.mp hnew]
      exact Option.some_ne_none p
  rw [makeRoom] at hrings ⊢
  by_cases hfull : isQueueFull rb.packetQueue
  · have hlt : taken < history.length := by
      have hlen := h.rings.full_iff.mp hfull
      have hroom := h.rings.room
      omega
    obtain ⟨j, hj⟩ := Option.ne_none_iff_exists'.mp (h.filled _ (List.getElem_mem hlt))
    have hheld : held (history ++ [⟨rtpSeq, some p, (heap.packet p).packetBufferLength⟩]) taken taken = some j := by
      rw [held, if_pos (Nat.le_refl _), List.getElem?_append_left hlt, List.getElem?_eq_getElem hlt]
      exact hj
    have hlive : Rolling.isLive heap.blocks j = true := isLive_iff.mpr (hgood.owns.live (x := taken) hheld)
    have hrelease := hgood.release taken
    simp only [Pointers.release, hheld, held_succ] at hrelease
    rw [if_pos hfull] at hrings ⊢
    rw [if_pos hfull, if_pos hfull, List.getElem?_eq_getElem hlt] at hq'
    simp only [Rolling.setPacket, if_pos h.ready, Heap.touch, hq', Option.bind_some, hj, discardRtpSequenceBuffer,
      if_pos h.isInit]
    refine ⟨_, _, if_neg (by decide), ⟨h.isInit, h.capacity.trans hlength.symm, hrings, hrelease, hfilled, ?_⟩,
      rfl, rfl, rfl⟩
    show ((heap.fault || !Rolling.isLive heap.blocks p) || !Rolling.isLive heap.blocks j) = false
    rw [hfault, hlive]
    rfl
  · rw [if_neg hfull] at hrings ⊢
    rw [if_neg hfull, if_neg hfull] at hq'
    simp only [Rolling.setPacket, if_pos h.ready, Heap.touch, hq', Option.bind_none, discardRtpSequenceBuffer]
    exact ⟨_, _, if_neg (by decide), ⟨h.isInit, h.capacity.trans hlength.symm, hrings, hgood, hfilled, hfault⟩,
      rfl, rfl, rfl⟩

/-- A write to a block of the queue. -/
theorem Keeps.store {p : ℕ} (h : Keeps rb heap history taken) (hp : Rolling.isLive heap.blocks p = true)
    {packet : RollingBufferPacket}
    (hlength : packet.pPacketBuffer.length ≤ (heap.packet p).pPacketBuffer.length) :
    Keeps rb (heap.store p packet) history taken :=
  ⟨h.isInit, h.capacity, h.rings, h.good, h.filled, Heap.store_fault h.fault hp hlength⟩

/-- A read of a block of the queue. -/
theorem Keeps.touch {p : ℕ} (h : Keeps rb heap history taken) (hp : Rolling.isLive heap.blocks p = true) :
    Keeps rb (heap.touch p) history taken := by
  refine ⟨h.isInit, h.capacity, h.rings, h.good, h.filled, ?_⟩
  show (heap.fault || !Rolling.isLive heap.blocks p) = false
  rw [h.fault, hp]
  rfl

/-- `PeerConnectionRollingBuffer_SearchRtpSequenceBuffer` finds the oldest packet with the number. -/
theorem Keeps.search (h : Keeps rb heap history taken) (rtpSeq : UInt16) :
    match (history.drop taken).find? fun info => info.seqNum = rtpSeq with
    | none => searchRtpSequenceBuffer rb heap rtpSeq = (.failRtpPacketQueueRetrieve, none, heap)
    | some info => ∃ k p, history[k]? = some info ∧ taken ≤ k ∧ info.seqNum = rtpSeq ∧
        info.pSerializedRtpPacket = some p ∧ held history taken k = some p ∧
        searchRtpSequenceBuffer rb heap rtpSeq =
          (.ok, some p, heap.store p { heap.packet p with packetBufferLength := info.serializedPacketLength }) := by
  have hretrieve := h.rings.retrieve rtpSeq
  cases hfind : (history.drop taken).find? fun info => info.seqNum = rtpSeq with
  | none =>
    rw [hfind] at hretrieve
    simp only [searchRtpSequenceBuffer, if_pos h.ready, hretrieve]
    split_ifs <;> rfl
  | some info =>
    have hmem := List.mem_of_find?_eq_some hfind
    have hseq := List.find?_some hfind
    obtain ⟨i, hi⟩ := List.mem_iff_getElem?.mp hmem
    rw [List.getElem?_drop] at hi
    have hlt := (List.getElem?_eq_some_iff.mp hi).1
    obtain ⟨p, hp⟩ := Option.ne_none_iff_exists'.mp (h.filled info (List.mem_of_getElem? hi))
    rw [hfind, if_neg (by omega)] at hretrieve
    simp only [searchRtpSequenceBuffer, if_pos h.ready, hretrieve, hp]
    refine ⟨taken + i, p, hi, Nat.le_add_right _ _, of_decide_eq_true hseq, rfl, ?_, rfl⟩
    rw [held, if_pos (Nat.le_add_right _ _), hi]
    exact hp

/-- The loop of `PeerConnectionRollingBuffer_Free` releases what the queue holds. -/
theorem Keeps.freeLoop (h : Keeps rb heap history taken) :
    (∀ b ∈ (freeLoop rb.packetQueue heap).2.blocks, b.frees = [()]) ∧
      (freeLoop rb.packetQueue heap).2.fault = false ∧
      (freeLoop rb.packetQueue heap).2.blocks.length = heap.blocks.length := by
  have hdequeue := h.rings.dequeue
  induction hk : history.length - taken generalizing rb heap taken with
  | zero =>
    have hle := h.rings.le
    rw [List.getElem?_eq_none (by omega)] at hdequeue
    rw [Rolling.freeLoop, hdequeue]
    refine ⟨h.good.released fun k => ?_, h.fault, rfl⟩
    show held history taken k = none
    rw [held]
    split_ifs with hk'
    · rw [List.getElem?_eq_none (by omega)]
      rfl
    · rfl
  | succ n ih =>
    have hlt : taken < history.length := by omega
    obtain ⟨j, hj⟩ := Option.ne_none_iff_exists'.mp (h.filled _ (List.getElem_mem hlt))
    have hheld : held history taken taken = some j := by
      rw [held, if_pos (Nat.le_refl _), List.getElem?_eq_getElem hlt]
      exact hj
    have hrelease := h.good.release taken
    simp only [Pointers.release, hheld, held_succ] at hrelease
    have hnext : Keeps { rb with packetQueue := advance rb.packetQueue } (heap.release j) history (taken + 1) := by
      refine ⟨h.isInit, h.capacity, h.rings.advance hlt, hrelease, h.filled, ?_⟩
      show (heap.fault || !Rolling.isLive heap.blocks j) = false
      rw [h.fault, isLive_of_held h hheld]
      rfl
    rw [List.getElem?_eq_getElem hlt] at hdequeue
    rw [Rolling.freeLoop, hdequeue]
    simp only [Option.bind_some, hj]
    obtain ⟨hall, hfault, hlength⟩ := ih hnext hnext.rings.dequeue (by omega)
    exact ⟨hall, hfault, hlength.trans (length_free heap.blocks () (some j))⟩

end IotcRa8p1.Media.Rolling
