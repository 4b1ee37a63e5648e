import IotcRa8p1.Lib.Fifo
import Mathlib.Algebra.Group.Nat.Defs

/-!
# The queue of RTP packets (`rtp_pkt_queue.c`)

A ring of slots with a read index, a write index and a count.  `RtpPacketQueue_ForceEnqueue` makes room by
deleting the oldest packet, `RtpPacketQueue_Retrieve` finds a packet by its sequence number and leaves it there.

`Rings` ties the ring to all that was ever put in and the number taken out; `rtpPacketQueue_refines` compares
it with the bounded queue of `Lib.Fifo` over any calls.
-/

namespace IotcRa8p1.Media.PktQueue

open Fifo

/-- `RtpPacketQueueResult_t` -/
inductive RtpPacketQueueResult where
  | ok
  | badParam
  | full
  | empty
  | packetNotFound
  | packetDeleted
  deriving DecidableEq, Repr

/-- `RtpPacketInfo_t` -/
structure RtpPacketInfo where
  seqNum : UInt16
  pSerializedRtpPacket : Option ℕ
  serializedPacketLength : ℕ
  deriving DecidableEq, Repr

/-- `RtpPacketQueue_t` -/
structure RtpPacketQueue where
  pRtpPacketInfoArray : ℕ → RtpPacketInfo
  rtpPacketInfoArrayLength : ℕ
  readIndex : ℕ
  writeIndex : ℕ
  packetCount : ℕ

/-- `SIZE_MAX / sizeof( RtpPacketInfo_t )` -/
abbrev maxInfos : ℕ := (2 ^ 32 - 1) / 12

/-- `RtpPacketQueue_Init`; the array is cleared. -/
def init (rtpPacketInfoArrayLength : ℕ) : Option RtpPacketQueue :=
  if rtpPacketInfoArrayLength < 2 ∨ maxInfos < rtpPacketInfoArrayLength then none
  else some ⟨fun _ => ⟨0, none, 0⟩, rtpPacketInfoArrayLength, 0, 0, 0⟩

variable (q : RtpPacketQueue)

/-- `IS_QUEUE_FULL` -/
def isQueueFull : Prop := q.packetCount = q.rtpPacketInfoArrayLength

/-- `IS_QUEUE_EMPTY` -/
def isQueueEmpty : Prop := q.packetCount = 0

instance : Decidable (isQueueFull q) := inferInstanceAs (Decidable (_ = _))

instance : Decidable (isQueueEmpty q) := inferInstanceAs (Decidable (_ = _))

/-- The slot at the write index is filled. -/
def store (info : RtpPacketInfo) : RtpPacketQueue :=
  { q with
    pRtpPacketInfoArray := Function.update q.pRtpPacketInfoArray q.writeIndex info
    writeIndex := (q.writeIndex + 1) % q.rtpPacketInfoArrayLength
    packetCount := q.packetCount + 1 }

/-- The slot at the read index is given up. -/
def advance : RtpPacketQueue :=
  { q with
    readIndex := (q.readIndex + 1) % q.rtpPacketInfoArrayLength
    packetCount := q.packetCount - 1 }

/-- `RtpPacketQueue_Enqueue` -/
def enqueue (info : RtpPacketInfo) : RtpPacketQueueResult × RtpPacketQueue :=
  if isQueueFull q then (.full, q) else (.ok, store q info)

/-- `RtpPacketQueue_ForceEnqueue`, with what it leaves in `pDeletedRtpPacketInfo`. -/
def forceEnqueue (info : RtpPacketInfo) : RtpPacketQueueResult × Option RtpPacketInfo × RtpPacketQueue :=
  if isQueueFull q then
    (.packetDeleted, some (q.pRtpPacketInfoArray q.readIndex), store (advance q) info)
  else (.ok, none, store q info)

/-- `RtpPacketQueue_Peek` -/
def peek : RtpPacketQueueResult × Option RtpPacketInfo :=
  if isQueueEmpty q then (.empty, none) else (.ok, some (q.pRtpPacketInfoArray q.readIndex))

/-- `RtpPacketQueue_Dequeue` -/
def dequeue : RtpPacketQueueResult × Option RtpPacketInfo × RtpPacketQueue :=
  match peek q with
  | (.ok, info) => (.ok, info, advance q)
  | (result, info) => (result, info, q)

/-- The loop of `RtpPacketQueue_Retrieve`. -/
def retrieveLoop (seqNum : UInt16) (i : ℕ) : Option RtpPacketInfo :=
  if _h : i < q.packetCount then
    let readIndex := (q.readIndex + i) % q.rtpPacketInfoArrayLength
    if (q.pRtpPacketInfoArray readIndex).seqNum = seqNum then some (q.pRtpPacketInfoArray readIndex)
    else retrieveLoop seqNum (i + 1)
  else none
termination_by q.packetCount - i

/-- `RtpPacketQueue_Retrieve` -/
def retrieve (seqNum : UInt16) : RtpPacketQueueResult × Option RtpPacketInfo :=
  if isQueueEmpty q then (.empty, none)
  else
    match retrieveLoop q seqNum 0 with
    | some info => (.ok, some info)
    | none => (.packetNotFound, none)

/-! ### What the ring holds -/

variable {q} {history : List RtpPacketInfo} {taken : ℕ} {info : RtpPacketInfo}

/-- The ring holds what was put in and not taken out. -/
structure Rings (q : RtpPacketQueue) (history : List RtpPacketInfo) (taken : ℕ) : Prop where
  le : taken ≤ history.length
  count : q.packetCount = history.length - taken
  fits : history.length ≤ taken + q.rtpPacketInfoArrayLength
  room : 2 ≤ q.rtpPacketInfoArrayLength
  read : q.readIndex = taken % q.rtpPacketInfoArrayLength
  write : q.writeIndex = history.length % q.rtpPacketInfoArrayLength
  holds : Holds q.rtpPacketInfoArrayLength q.pRtpPacketInfoArray history taken

theorem init_rings {n : ℕ} (h : init n = some q) : Rings q [] 0 ∧ q.rtpPacketInfoArrayLength = n := by
  rw [init] at h
  split_ifs at h with hbad
  obtain rfl := Option.some.inj h
  have hroom : 2 ≤ n := Nat.not_lt.mp fun hlt => hbad (Or.inl hlt)
  exact ⟨⟨Nat.le_refl _, rfl, Nat.zero_le _, hroom, (Nat.zero_mod _).symm, (Nat.zero_mod _).symm, holds_nil _⟩, rfl⟩

theorem Rings.full_iff (h : Rings q history taken) :
    isQueueFull q ↔ history.length = taken + q.rtpPacketInfoArrayLength := by
  have hcount := h.count
  have hle := h.le
  have hfits := h.fits
  rw [isQueueFull, hcount]
  omega

theorem Rings.empty_iff (h : Rings q history taken) : isQueueEmpty q ↔ taken = history.length := by
  have hle := h.le
  rw [isQueueEmpty, h.count]
  omega

theorem Rings.store (h : Rings q history taken) (hroom : history.length < taken + q.rtpPacketInfoArrayLength)
    (info : RtpPacketInfo) : Rings (store q info) (history ++ [info]) taken where
  le := by
    rw [List.length_append]
    exact Nat.le_add_right_of_le h.le
  count := by
    have hcount := h.count
    have hle := h.le
    rw [List.length_append, List.length_singleton]
    show q.packetCount + 1 = _
    omega
  fits := by
    rw [List.length_append]
    exact hroom
  room := h.room
  read := h.read
  write := by
    rw [List.length_append]
    show (q.writeIndex + 1) % q.rtpPacketInfoArrayLength = _ % q.rtpPacketInfoArrayLength
    rw [h.write, Nat.mod_add_mod]
    rfl
  holds := by
    show Holds q.rtpPacketInfoArrayLength (Function.update q.pRtpPacketInfoArray q.writeIndex info) _ taken
    rw [h.write]
    exact (h.holds.store hroom info).push (Function.update_self _ _ _)

theorem Rings.advance (h : Rings q history taken) (hne : taken < history.length) :
    Rings (advance q) history (taken + 1) where
  le := hne
  count := by
    have hcount := h.count
    show q.packetCount - 1 = _
    omega
  fits := by
    have hfits := h.fits
    show history.length ≤ taken + 1 + q.rtpPacketInfoArrayLength
    omega
  room := h.room
  read := by
    show (q.readIndex + 1) % q.rtpPacketInfoArrayLength = _ % q.rtpPacketInfoArrayLength
    rw [h.read, Nat.mod_add_mod]
  write := h.write
  holds := h.holds.pop

/-- The oldest packet stands at the read index. -/
theorem Rings.oldest (h : Rings q history taken) (hne : taken < history.length) :
    history[taken]? = some (q.pRtpPacketInfoArray q.readIndex) := by
  rw [h.read]
  exact h.holds.get hne

/-- The number of packets taken out once there is room for one more. -/
def makeRoom (q : RtpPacketQueue) (taken : ℕ) : ℕ := if isQueueFull q then taken + 1 else taken

/-- What `RtpPacketQueue_ForceEnqueue` does: the packet joins the history, and the oldest one leaves when the ring
was full. -/
theorem Rings.forceEnqueue (h : Rings q history taken) (info : RtpPacketInfo) :
    ∃ q', PktQueue.forceEnqueue q info =
        (if isQueueFull q then .packetDeleted else .ok, if isQueueFull q then history[taken]? else none, q') ∧
      Rings q' (history ++ [info]) (makeRoom q taken) ∧
      q'.rtpPacketInfoArrayLength = q.rtpPacketInfoArrayLength := by
  have hroom := h.room
  by_cases hfull : isQueueFull q
  · have hlen := h.full_iff.mp hfull
    have hne : taken < history.length := by omega
    have hstore := (h.advance hne).store (by show _ < taken + 1 + q.rtpPacketInfoArrayLength; omega) info
    rw [PktQueue.forceEnqueue, makeRoom, if_pos hfull, if_pos hfull, if_pos hfull, if_pos hfull, h.oldest hne]
    exact ⟨_, rfl, hstore, rfl⟩
  · have hlt : history.length < taken + q.rtpPacketInfoArrayLength :=
      Nat.lt_of_le_of_ne h.fits fun heq => hfull (h.full_iff.mpr heq)
    rw [PktQueue.forceEnqueue, makeRoom, if_neg hfull, if_neg hfull, if_neg hfull, if_neg hfull]
    exact ⟨_, rfl, h.store hlt info, rfl⟩

theorem Rings.peek (h : Rings q history taken) :
    PktQueue.peek q =
      match history[taken]? with
      | none => (.empty, none)
      | some info => (.ok, some info) := by
  rw [PktQueue.peek]
  by_cases hempty : isQueueEmpty q
  · rw [if_pos hempty, List.getElem?_eq_none (Nat.le_of_eq (h.empty_iff.mp hempty).symm)]
  · have hne : taken < history.length := Nat.lt_of_le_of_ne h.le fun heq => hempty (h.empty_iff.mpr heq)
    rw [if_neg hempty, h.oldest hne]

theorem Rings.dequeue (h : Rings q history taken) :
    PktQueue.dequeue q =
      match history[taken]? with
      | none => (.empty, none, q)
      | some info => (.ok, some info, PktQueue.advance q) := by
  rw [PktQueue.dequeue, h.peek]
  cases history[taken]? <;> rfl

theorem Rings.retrieveLoop (h : Rings q history taken) (seqNum : UInt16) (i : ℕ) :
    PktQueue.retrieveLoop q seqNum i = (history.drop (taken + i)).find? fun p => p.seqNum = seqNum := by
  have hcount := h.count
  have hle := h.le
  induction hk : q.packetCount - i generalizing i with
  | zero =>
    rw [PktQueue.retrieveLoop, dif_neg (by omega), List.drop_eq_nil_of_le (by omega)]
    rfl
  | succ k ih =>
    have hlt : taken + i < history.length := by omega
    have hslot : q.pRtpPacketInfoArray ((q.readIndex + i) % q.rtpPacketInfoArrayLength) = history[taken + i] := by
      rw [h.read, Nat.mod_add_mod]
      exact h.holds _ (Nat.le_add_right _ _) _ (List.getElem?_eq_getElem hlt)
    rw [PktQueue.retrieveLoop, dif_pos (by omega)]
    dsimp only
    rw [hslot, List.drop_eq_getElem_cons hlt, List.find?_cons, ih (i + 1) (by omega), Nat.add_assoc]
    by_cases hseq : history[taken + i].seqNum = seqNum
    · rw [if_pos hseq, decide_eq_true hseq]
    · rw [if_neg hseq, decide_eq_false hseq]

/-- What `RtpPacketQueue_Retrieve` finds: the oldest packet with the number. -/
theorem Rings.retrieve (h : Rings q history taken) (seqNum : UInt16) :
    PktQueue.retrieve q seqNum =
      if taken = history.length then (.empty, none)
      else
        match (history.drop taken).find? fun p => p.seqNum = seqNum with
        | some info => (.ok, some info)
        | none => (.packetNotFound, none) := by
  rw [PktQueue.retrieve, h.retrieveLoop seqNum 0, if_congr h.empty_iff rfl rfl]
  rfl

variable (q) in
/-- The packets in the queue, the oldest one first. -/
def contents : List RtpPacketInfo :=
  (List.range q.packetCount).map fun i => q.pRtpPacketInfoArray ((q.readIndex + i) % q.rtpPacketInfoArrayLength)

theorem Rings.contents (h : Rings q history taken) : contents q = history.drop taken := by
  have hcount := h.count
  have hle := h.le
  apply List.ext_getElem
  · rw [PktQueue.contents, List.length_map, List.length_range, List.length_drop, hcount]
  · intro i hi hi'
    rw [List.length_drop] at hi'
    simp only [PktQueue.contents, List.getElem_map, List.getElem_range, List.getElem_drop]
    rw [h.read, Nat.mod_add_mod]
    exact h.holds _ (Nat.le_add_right _ _) _ (List.getElem?_eq_getElem (by omega))

/-! ### The bounded queue -/

/-- A call on a queue. -/
inductive Call where
  | enqueue (info : RtpPacketInfo)
  | forceEnqueue (info : RtpPacketInfo)
  | dequeue
  | peek
  | retrieve (seqNum : UInt16)
  deriving DecidableEq, Repr

/-- The result of a call and the packet it gave out. -/
abbrev Answer := RtpPacketQueueResult × Option RtpPacketInfo

/-- A call on the ring. -/
def onRing (q : RtpPacketQueue) : Call → Answer × RtpPacketQueue
  | .enqueue info => (((enqueue q info).1, none), (enqueue q info).2)
  | .forceEnqueue info => (((forceEnqueue q info).1, (forceEnqueue q info).2.1), (forceEnqueue q info).2.2)
  | .dequeue => (((dequeue q).1, (dequeue q).2.1), (dequeue q).2.2)
  | .peek => (peek q, q)
  | .retrieve seqNum => (retrieve q seqNum, q)

variable {cap : ℕ}

/-- The same call on a bounded queue. -/
def onQueue (b : Bounded RtpPacketInfo cap) : Call → Answer × Bounded RtpPacketInfo cap
  | .enqueue info =>
    match b.push info with
    | some r => ((.ok, none), r)
    | none => ((.full, none), b)
  | .forceEnqueue info =>
    match b.push info, b.pop with
    | some r, _ => ((.ok, none), r)
    | none, some (oldest, r) => ((.packetDeleted, some oldest), (r.push info).getD r)
    | none, none => ((.badParam, none), b)
  | .dequeue =>
    match b.pop with
    | some (oldest, r) => ((.ok, some oldest), r)
    | none => ((.empty, none), b)
  | .peek =>
    match b.items with
    | [] => ((.empty, none), b)
    | oldest :: _ => ((.ok, some oldest), b)
  | .retrieve seqNum =>
    if b.items = [] then ((.empty, none), b)
    else
      match b.items.find? fun p => p.seqNum = seqNum with
      | some info => ((.ok, some info), b)
      | none => ((.packetNotFound, none), b)

/-- The answers to calls in order. -/
def answers {σ : Type} (on : σ → Call → Answer × σ) : σ → List Call → List Answer
  | _, [] => []
  | s, c :: calls => (on s c).1 :: answers on (on s c).2 calls

/-- The queue that the ring stands for. -/
structure Refines (q : RtpPacketQueue) (b : Bounded RtpPacketInfo cap) : Prop where
  cap : q.rtpPacketInfoArrayLength = cap
  rings : ∃ history taken, Rings q history taken ∧ b.items = history.drop taken

variable {b : Bounded RtpPacketInfo cap}

theorem Rings.push_eq_none (h : Rings q history taken) (hcap : q.rtpPacketInfoArrayLength = cap)
    (hb : b.items = history.drop taken) (info : RtpPacketInfo) : b.push info = none ↔ isQueueFull q := by
  have hle := h.le
  rw [Bounded.push_eq_none, h.full_iff, hb, List.length_drop, hcap]
  omega

theorem Rings.pushed {r : Bounded RtpPacketInfo cap} (h : Rings q history taken)
    (hb : b.items = history.drop taken) (hpush : b.push info = some r) :
    r.items = (history ++ [info]).drop taken := by
  rw [Bounded.push_items hpush, hb, List.drop_append_of_le_length h.le]

/-- The oldest item and the rest of the queue. -/
theorem Rings.pop (h : Rings q history taken) (hb : b.items = history.drop taken) :
    (b.pop = none ∧ history[taken]? = none) ∨
      ∃ oldest r, b.pop = some (oldest, r) ∧ history[taken]? = some oldest ∧ taken < history.length ∧
        r.items = history.drop (taken + 1) := by
  rcases Nat.lt_or_eq_of_le h.le with hlt | heq
  · right
    have hitems := hb.trans (List.drop_eq_getElem_cons hlt)
    cases hpop : b.pop with
    | none =>
      rw [Bounded.pop_eq_none.mp hpop] at hitems
      exact nomatch hitems
    | some x =>
      obtain ⟨oldest, r⟩ := x
      obtain ⟨rfl, hr⟩ := List.cons.inj ((Bounded.pop_items hpop).symm.trans hitems)
      exact ⟨_, r, rfl, List.getElem?_eq_getElem hlt, hlt, hr⟩
  · left
    refine ⟨Bounded.pop_eq_none.mpr ?_, List.getElem?_eq_none (Nat.le_of_eq heq.symm)⟩
    rw [hb, List.drop_eq_nil_of_le (Nat.le_of_eq heq.symm)]

theorem refines_enqueue (h : Refines q b) (info : RtpPacketInfo) :
    (onRing q (.enqueue info)).1 = (onQueue b (.enqueue info)).1 ∧
      Refines (onRing q (.enqueue info)).2 (onQueue b (.enqueue info)).2 := by
  obtain ⟨hcap, history, taken, hrings, hb⟩ := h
  cases hpush : b.push info with
  | none =>
    have hfull := (hrings.push_eq_none hcap hb info).mp hpush
    simp only [onRing, onQueue, enqueue, hpush, if_pos hfull]
    exact ⟨trivial, hcap, history, taken, hrings, hb⟩
  | some r =>
    have hfull : ¬ isQueueFull q := by
      rw [← hrings.push_eq_none hcap hb info, hpush]
      exact nofun
    have hroom := Nat.lt_of_le_of_ne hrings.fits fun heq => hfull (hrings.full_iff.mpr heq)
    simp only [onRing, onQueue, enqueue, hpush, if_neg hfull]
    exact ⟨trivial, hcap, _, taken, hrings.store hroom info, hrings.pushed hb hpush⟩

theorem refines_forceEnqueue (h : Refines q b) (info : RtpPacketInfo) :
    (onRing q (.forceEnqueue info)).1 = (onQueue b (.forceEnqueue info)).1 ∧
      Refines (onRing q (.forceEnqueue info)).2 (onQueue b (.forceEnqueue info)).2 := by
  obtain ⟨hcap, history, taken, hrings, hb⟩ := h
  have hle := hrings.le
  have hroom := hrings.room
  obtain ⟨q', hq', hrings', hlength⟩ := hrings.forceEnqueue info
  rw [makeRoom] at hrings'
  simp only [onRing, hq']
  cases hpush : b.push info with
  | none =>
    have hfull := (hrings.push_eq_none hcap hb info).mp hpush
    have hlen := hrings.full_iff.mp hfull
    rw [if_pos hfull] at hrings'
    obtain ⟨-, hnone⟩ | ⟨oldest, r, hpop, hget, hlt, hr⟩ := hrings.pop hb
    · rw [List.getElem?_eq_none_iff] at hnone
      omega
    · -- the queue without its oldest item has room
      obtain ⟨r', hr'⟩ : ∃ r', r.push info = some r' := by
        apply Option.ne_none_iff_exists'.mp
        intro hnone
        have hlength := Bounded.push_eq_none.mp hnone
        rw [hr, List.length_drop] at hlength
        omega
      simp only [onQueue, hpush, hpop, hr', if_pos hfull, hget, Option.getD_some]
      refine ⟨trivial, hlength.trans hcap, _, _, hrings', ?_⟩
      rw [Bounded.push_items hr', hr, List.drop_append_of_le_length hlt]
  | some r =>
    have hfull : ¬ isQueueFull q := by
      rw [← hrings.push_eq_none hcap hb info, hpush]
      exact nofun
    rw [if_neg hfull] at hrings'
    simp only [onQueue, hpush, if_neg hfull]
    exact ⟨trivial, hlength.trans hcap, _, _, hrings', hrings.pushed hb hpush⟩

theorem refines_dequeue (h : Refines q b) :
    (onRing q .dequeue).1 = (onQueue b .dequeue).1 ∧ Refines (onRing q .dequeue).2 (onQueue b .dequeue).2 := by
  obtain ⟨hcap, history, taken, hrings, hb⟩ := h
  have hdequeue := hrings.dequeue
  obtain ⟨hpop, hnone⟩ | ⟨oldest, r, hpop, hget, hlt, hr⟩ := hrings.pop hb
  · rw [hnone] at hdequeue
    simp only [onRing, onQueue, hdequeue, hpop]
    exact ⟨trivial, hcap, history, taken, hrings, hb⟩
  · rw [hget] at hdequeue
    simp only [onRing, onQueue, hdequeue, hpop]
    exact ⟨trivial, hcap, history, taken + 1, hrings.advance hlt, hr⟩

/-- One call: the same answer, and the ring stands for the queue again. -/
theorem refines_step (h : Refines q b) (c : Call) :
    (onRing q c).1 = (onQueue b c).1 ∧ Refines (onRing q c).2 (onQueue b c).2 := by
  cases c with
  | enqueue info => exact refines_enqueue h info
  | forceEnqueue info => exact refines_forceEnqueue h info
  | dequeue => exact refines_dequeue h
  | peek =>
    have ⟨hcap, history, taken, hrings, hb⟩ := h
    have hpeek := hrings.peek
    cases hget : history[taken]? with
    | none =>
      have hnil : b.items = [] := hb.trans (List.drop_eq_nil_of_le (List.getElem?_eq_none_iff.mp hget))
      rw [hget] at hpeek
      simp only [onRing, onQueue, hpeek, hnil]
      exact ⟨trivial, h⟩
    | some oldest =>
      obtain ⟨hlt, rfl⟩ := List.getElem?_eq_some_iff.mp hget
      have hcons := hb.trans (List.drop_eq_getElem_cons hlt)
      rw [hget] at hpeek
      simp only [onRing, onQueue, hpeek, hcons]
      exact ⟨trivial, h⟩
  | retrieve seqNum =>
    have ⟨hcap, history, taken, hrings, hb⟩ := h
    have hle := hrings.le
    have hnil : b.items = [] ↔ taken = history.length := by
      rw [hb, List.drop_eq_nil_iff]
      omega
    simp only [onRing, onQueue, hrings.retrieve seqNum, hnil, ← hb]
    split_ifs
    · exact ⟨rfl, h⟩
    · cases b.items.find? fun p => p.seqNum = seqNum with
      | none => exact ⟨rfl, h⟩
      | some info => exact ⟨rfl, h⟩

theorem refines_answers (h : Refines q b) (calls : List Call) : answers onRing q calls = answers onQueue b calls := by
  induction calls generalizing q b with
  | nil => rfl
  | cons c calls ih =>
    obtain ⟨hanswer, hrest⟩ := refines_step h c
    rw [answers, answers, hanswer, ih hrest]

/-- Over any calls a new queue answers as a bounded first-in first-out queue of its length. -/
theorem rtpPacketQueue_refines {n : ℕ} (hinit : init n = some q) (calls : List Call) :
    answers onRing q calls = answers onQueue (⟨[], Nat.zero_le n⟩ : Bounded RtpPacketInfo n) calls := by
  obtain ⟨hrings, hlength⟩ := init_rings hinit
  exact refines_answers ⟨hlength, [], 0, hrings, rfl⟩ calls

/-- A queue of two slots. -/
def twoSlots : RtpPacketQueue := ⟨fun _ => ⟨0, none, 0⟩, 2, 0, 0, 0⟩

theorem rtpPacketQueue_refines_twoSlots :
    let calls : List Call := [.forceEnqueue ⟨7, some 1, 9⟩, .enqueue ⟨8, some 2, 9⟩, .forceEnqueue ⟨9, some 3, 9⟩,
      .retrieve 7, .retrieve 9, .dequeue]
    answers onRing twoSlots calls = answers onQueue (⟨[], Nat.zero_le 2⟩ : Bounded RtpPacketInfo 2) calls :=
  rtpPacketQueue_refines (show init 2 = some twoSlots from rfl) _

end IotcRa8p1.Media.PktQueue
