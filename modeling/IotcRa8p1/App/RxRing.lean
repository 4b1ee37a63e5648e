import IotcRa8p1.Lib.ByteMem
import IotcRa8p1.Lib.Fifo
import IotcRa8p1.Lib.Machine
import Mathlib.Data.List.ReduceOption

/-!
# The receive ring of the console (`console_output.c`)

The UART callback pushes a character into `s_rx_ring`, `console_read_char` takes the oldest one; both index
the ring with a free-running 32-bit counter by remainder.  The CLI task is the only reader.

A step is one access to what the two share, and any order of the steps is a run: also one in which the
reader moves between two accesses of the callback, which it cannot on one core.  A character is accepted
when the callback advances `s_rx_head` behind it.  `accepted`, `dropped`, `results` and `stored` are not in
the code: they remember what happened.
-/

namespace IotcRa8p1.App.RxRing

open ByteMem Fifo Machine

/-- `CONSOLE_RX_RING_SIZE` -/
abbrev consoleRxRingSize : UInt32 := 8192

/-- `p_args->event`, with `p_args->data` where it is read. -/
inductive UartEvent where
  | rxChar (data : UInt32)
  | rxComplete
  | txComplete
  | other
  deriving DecidableEq, Repr

/-- The next instruction of `console_output_uart_callback`. -/
inductive IsrPc where
  | idle
  | store (c : UInt8)
  | advance (c : UInt8)
  deriving DecidableEq, Repr

/-- The next instruction of `console_read_char`. -/
inductive ReadPc where
  | idle
  | test (timeoutMs waited : UInt32)
  | late (timeoutMs waited : UInt32)
  | load
  | advance (c : UInt8)
  deriving DecidableEq, Repr

structure St where
  /-- `s_rx_ring` -/
  ring : Mem
  /-- `s_rx_head` -/
  head : UInt32
  /-- `s_rx_tail` -/
  tail : UInt32
  /-- `g_receive_complete` -/
  receiveComplete : Bool
  /-- `g_transfer_complete` -/
  transferComplete : Bool
  isr : IsrPc
  reader : ReadPc
  accepted : List UInt8
  dropped : List UInt8
  /-- what the calls of `console_read_char` returned, `none` for -1 -/
  results : List (Option UInt8)
  /-- the number of the character a slot was last written with -/
  stored : ℕ → Option ℕ

def boot : St where
  ring _ := 0
  head := 0
  tail := 0
  receiveComplete := false
  transferComplete := false
  isr := .idle
  reader := .idle
  accepted := []
  dropped := []
  results := []
  stored _ := none

/-- The characters returned so far. -/
def returned (s : St) : List UInt8 := s.results.reduceOption

/-- `s_rx_head % CONSOLE_RX_RING_SIZE`, or the same of `s_rx_tail`. -/
def slotOf (counter : UInt32) : ℕ := (counter % consoleRxRingSize).toNat

/-- `console_output_uart_callback`, up to its first access. -/
def uartCallback (s : St) : UartEvent → St
  | .rxChar data =>
    if s.head - s.tail < consoleRxRingSize then { s with isr := .store data.toUInt8 }
    else { s with dropped := s.dropped ++ [data.toUInt8] }
  | .rxComplete => { s with receiveComplete := true }
  | .txComplete => { s with transferComplete := true }
  | .other => s

/-- One instruction of the callback behind the test for room. -/
def isrStep (s : St) : Option St :=
  match s.isr with
  | .idle => none
  | .store c =>
    some { s with
      ring := Function.update s.ring (slotOf s.head) c
      stored := Function.update s.stored (slotOf s.head) (some s.accepted.length)
      isr := .advance c }
  | .advance c => some { s with head := s.head + 1, accepted := s.accepted ++ [c], isr := .idle }

/-- One instruction of `console_read_char`. -/
def readStep (s : St) : Option St :=
  match s.reader with
  | .idle => none
  | .test timeoutMs waited =>
    some { s with reader := if s.tail = s.head then .late timeoutMs waited else .load }
  | .late timeoutMs waited =>
    if timeoutMs ≤ waited then some { s with results := s.results ++ [none], reader := .idle }
    else some { s with reader := .test timeoutMs (waited + 10) }
  | .load => some { s with reader := .advance (s.ring (slotOf s.tail)) }
  | .advance c => some { s with tail := s.tail + 1, results := s.results ++ [some c], reader := .idle }

inductive Action where
  | uart (event : UartEvent)
  | isr
  | readChar (timeoutMs : UInt32)
  | reader
  deriving DecidableEq, Repr

def step (s : St) : Action → Option St
  | .uart event => if s.isr = .idle then some (uartCallback s event) else none
  | .isr => isrStep s
  | .readChar timeoutMs =>
    if s.reader = .idle then some { s with reader := .test timeoutMs 0 } else none
  | .reader => readStep s

/-! ### The law of the ring -/

/-- The characters accepted and not returned yet. -/
def unread (s : St) : List UInt8 := s.accepted.drop (returned s).length

/-- The character that the callback has taken and not accepted yet. -/
def inFlight (s : St) : List UInt8 :=
  match s.isr with
  | .idle => []
  | .store c => [c]
  | .advance c => [c]

theorem unread_length (s : St) : (unread s).length = s.accepted.length - (returned s).length := by
  rw [unread, List.length_drop]

/-- What a step does to the queue of unread characters. -/
inductive Effect where
  | keep
  | push (c : UInt8)
  | refuse (c : UInt8)
  | pop (c : UInt8)
  | empty
  deriving DecidableEq, Repr

def effect (s : St) : Action → Effect
  | .uart (.rxChar data) =>
    if s.head - s.tail < consoleRxRingSize then .keep else .refuse data.toUInt8
  | .isr =>
    match s.isr with
    | .advance c => .push c
    | _ => .keep
  | .reader =>
    match s.reader with
    | .test _ _ => if s.tail = s.head then .empty else .keep
    | .advance c => .pop c
    | _ => .keep
  | _ => .keep

/-- The queue before and after an effect. -/
def Effect.Takes (q q' : Bounded UInt8 8192) : Effect → Prop
  | .keep => q' = q
  | .push c => q.push c = some q'
  | .refuse c => q.push c = none ∧ q' = q
  | .pop c => q.pop = some (c, q')
  | .empty => q.pop = none ∧ q' = q

/-- A character that arrives is taken or, when the ring holds 8192 unread ones, dropped; nothing else is lost
on the way, and the next two steps of the callback accept it. -/
structure Received (s : St) (a : Action) (s' : St) : Prop where
  arrives : ∀ data, a = .uart (.rxChar data) → s'.accepted = s.accepted ∧
    ((unread s).length < 8192 ∧ s'.isr = .store data.toUInt8 ∧ s'.dropped = s.dropped ∨
      (unread s).length = 8192 ∧ s'.isr = s.isr ∧ s'.dropped = s.dropped ++ [data.toUInt8])
  keeps : (∀ data, a ≠ .uart (.rxChar data)) →
    s'.accepted ++ inFlight s' = s.accepted ++ inFlight s ∧ s'.dropped = s.dropped
  stores : ∀ c, a = .isr → s.isr = .store c → s'.isr = .advance c
  accepts : ∀ c, a = .isr → s.isr = .advance c → s'.accepted = s.accepted ++ [c]

/-- The reader waits only when there is nothing unread, and takes the oldest unread character out of the slot
that was last written with it. -/
structure Read (s : St) (a : Action) (s' : St) : Prop where
  waits : ∀ timeoutMs waited, a = .reader → s.reader = .test timeoutMs waited →
    s'.reader = if unread s = [] then .late timeoutMs waited else .load
  written : a = .reader → s.reader = .load →
    s.stored (slotOf s.tail) = some (returned s).length ∧
      ∃ c, (unread s).head? = some c ∧ s'.reader = .advance c
  returns : ∀ c, a = .reader → s.reader = .advance c → returned s' = returned s ++ [c]

/-- One step of a bounded queue: what was returned is the beginning of what was accepted, no more is unread
than the ring holds, and the step does to the unread characters what it does to a bounded queue. -/
structure FifoStep (s : St) (a : Action) (s' : St) : Prop where
  order : returned s' <+: s'.accepted
  bound : s'.accepted.length ≤ (returned s').length + 8192
  drops : s'.dropped ≠ s.dropped → s.accepted.length = (returned s).length + 8192
  received : Received s a s'
  read : Read s a s'
  refines : ∃ q q' : Bounded UInt8 8192, q.items = unread s ∧ q'.items = unread s' ∧
    (effect s a).Takes q q'

/-! ### The invariant -/

/-- What the next access of the callback relies on. -/
def IsrInv (s : St) : Prop :=
  match s.isr with
  | .idle => True
  | .store _ => s.accepted.length < (returned s).length + 8192
  | .advance c => s.accepted.length < (returned s).length + 8192 ∧
      s.ring (s.accepted.length % 8192) = c ∧ s.stored (s.accepted.length % 8192) = some s.accepted.length

/-- What the next access of the reader relies on. -/
def ReadInv (s : St) : Prop :=
  match s.reader with
  | .load => (returned s).length < s.accepted.length
  | .advance c => s.accepted[(returned s).length]? = some c
  | _ => True

structure Inv (s : St) : Prop where
  head : s.head.toNat = s.accepted.length % 2 ^ 32
  tail : s.tail.toNat = (returned s).length % 2 ^ 32
  order : returned s <+: s.accepted
  bound : s.accepted.length ≤ (returned s).length + 8192
  chars : Holds 8192 s.ring s.accepted (returned s).length
  stamps : Holds 8192 s.stored ((List.range s.accepted.length).map some) (returned s).length
  isr : IsrInv s
  reader : ReadInv s

theorem boot_inv : Inv boot where
  head := rfl
  tail := rfl
  order := List.nil_prefix
  bound := Nat.zero_le _
  chars := holds_nil _
  stamps := holds_nil _
  isr := trivial
  reader := trivial

variable {s s' : St}

/-- The counters wrap at a multiple of the size of the ring. -/
theorem slotOf_of_toNat {counter : UInt32} {n : ℕ} (h : counter.toNat = n % 2 ^ 32) :
    slotOf counter = n % 8192 := by
  rw [slotOf, UInt32.toNat_mod, h]
  exact Nat.mod_mod_of_dvd n (by decide)

theorem toNat_succ {counter : UInt32} {n : ℕ} (h : counter.toNat = n % 2 ^ 32) :
    (counter + 1).toNat = (n + 1) % 2 ^ 32 := by
  rw [UInt32.toNat_add, h]
  exact Nat.mod_add_mod n (2 ^ 32) 1

/-- The difference of the counters is what is unread, across the wrap. -/
theorem Inv.counters (h : Inv s) :
    (s.head - s.tail).toNat = s.accepted.length - (returned s).length := by
  have hhead := h.head
  have htail := h.tail
  have hbound := h.bound
  have hle := h.order.length_le
  rw [UInt32.toNat_sub]
  omega

theorem Inv.room_iff (h : Inv s) :
    s.head - s.tail < consoleRxRingSize ↔ s.accepted.length < (returned s).length + 8192 := by
  have hle := h.order.length_le
  rw [UInt32.lt_iff_toNat_lt, h.counters]
  show s.accepted.length - (returned s).length < 8192 ↔ _
  omega

theorem Inv.empty_iff (h : Inv s) : s.tail = s.head ↔ s.accepted = returned s := by
  have hhead := h.head
  have htail := h.tail
  have hbound := h.bound
  have hle := h.order.length_le
  rw [← UInt32.toNat_inj]
  constructor
  · intro heq
    exact (h.order.eq_of_length (by omega)).symm
  · intro heq
    rw [hhead, htail, heq]

/-! ### Steps -/

theorem returned_none (s : St) (pc : ReadPc) :
    returned { s with results := s.results ++ [none], reader := pc } = returned s := by
  show (s.results ++ [none]).reduceOption = s.results.reduceOption
  rw [List.reduceOption_append]
  exact List.append_nil _

theorem returned_some (s : St) (tail : UInt32) (c : UInt8) (pc : ReadPc) :
    returned { s with tail := tail, results := s.results ++ [some c], reader := pc } =
      returned s ++ [c] := by
  show (s.results ++ [some c]).reduceOption = s.results.reduceOption ++ [c]
  rw [List.reduceOption_append]
  rfl

/-- A character goes into the ring only where there is room. -/
theorem uart_inv (h : Inv s) (event : UartEvent) : Inv (uartCallback s event) := by
  cases event with
  | rxChar data =>
    rw [uartCallback]
    split_ifs with hroom
    · exact { h with isr := h.room_iff.mp hroom }
    · exact { h with }
  | rxComplete => exact { h with }
  | txComplete => exact { h with }
  | other => exact h

theorem isr_inv (h : Inv s) (hs : isrStep s = some s') : Inv s' := by
  have hisr := h.isr
  have hslot := slotOf_of_toNat h.head
  unfold isrStep at hs
  unfold IsrInv at hisr
  cases hpc : s.isr with
  | idle => simp [hpc] at hs
  | store c =>
    simp only [hpc] at hs hisr
    obtain rfl := Option.some.inj hs
    rw [hslot]
    refine { h with chars := h.chars.store hisr c, stamps := ?_, isr := ⟨hisr, ?_, ?_⟩ }
    · have hstore := h.stamps.store (by rw [List.length_map, List.length_range]; exact hisr)
        (some s.accepted.length)
      rwa [List.length_map, List.length_range] at hstore
    · exact Function.update_self ..
    · exact Function.update_self ..
  | advance c =>
    simp only [hpc] at hs hisr
    obtain rfl := Option.some.inj hs
    obtain ⟨hroom, hring, hstamp⟩ := hisr
    have hlen : (s.accepted ++ [c]).length = s.accepted.length + 1 := by
      rw [List.length_append, List.length_singleton]
    refine { h with
      head := ?_, order := ?_, bound := ?_, chars := h.chars.push hring, stamps := ?_,
      isr := trivial, reader := ?_ }
    · rw [hlen]
      exact toNat_succ h.head
    · exact h.order.trans (List.prefix_append _ _)
    · rw [hlen]
      exact hroom
    · show Holds 8192 s.stored ((List.range (s.accepted ++ [c]).length).map some) _
      rw [hlen, List.range_succ, List.map_append]
      exact h.stamps.push (by rw [List.length_map, List.length_range]; exact hstamp)
    · have hreader := h.reader
      unfold ReadInv at hreader ⊢
      cases hread : s.reader with
      | load =>
        simp only [hread] at hreader ⊢
        rw [hlen]
        exact Nat.lt_succ_of_lt hreader
      | advance d =>
        simp only [hread] at hreader ⊢
        show (s.accepted ++ [c])[(returned s).length]? = some d
        rw [List.getElem?_append_left (List.getElem?_eq_some_iff.mp hreader).1]
        exact hreader
      | _ => trivial

theorem read_inv (h : Inv s) (hs : readStep s = some s') : Inv s' := by
  have hreader := h.reader
  unfold readStep at hs
  unfold ReadInv at hreader
  cases hpc : s.reader with
  | idle => simp [hpc] at hs
  | test timeoutMs waited =>
    simp only [hpc] at hs
    obtain rfl := Option.some.inj hs
    refine { h with reader := ?_ }
    by_cases hempty : s.tail = s.head
    · simp only [hempty, ReadInv, if_true]
    · have hne : (returned s).length ≠ s.accepted.length := fun heq =>
        hempty (h.empty_iff.mpr (h.order.eq_of_length heq).symm)
      simp only [ReadInv, if_neg hempty]
      exact Nat.lt_of_le_of_ne h.order.length_le hne
  | late timeoutMs waited =>
    simp only [hpc] at hs
    split_ifs at hs with hlate
    · obtain rfl := Option.some.inj hs
      have hret := returned_none s .idle
      exact ⟨h.head, hret ▸ h.tail, hret ▸ h.order, hret ▸ h.bound, hret ▸ h.chars, hret ▸ h.stamps,
        by simpa only [IsrInv, hret] using h.isr, trivial⟩
    · obtain rfl := Option.some.inj hs
      exact { h with reader := trivial }
  | load =>
    simp only [hpc] at hs hreader
    obtain rfl := Option.some.inj hs
    refine { h with reader := ?_ }
    rw [slotOf_of_toNat h.tail]
    exact h.chars.get hreader
  | advance c =>
    simp only [hpc] at hs hreader
    obtain rfl := Option.some.inj hs
    have hret := returned_some s (s.tail + 1) c .idle
    have hlen : (returned s ++ [c]).length = (returned s).length + 1 := by
      rw [List.length_append, List.length_singleton]
    have hlt := (List.getElem?_eq_some_iff.mp hreader).1
    have hbound := h.bound
    constructor
    · exact h.head
    · rw [hret, hlen]
      exact toNat_succ h.tail
    · rw [hret]
      exact prefix_concat h.order hreader
    · rw [hret, hlen]
      show s.accepted.length ≤ _
      omega
    · rw [hret, hlen]
      exact h.chars.pop
    · rw [hret, hlen]
      exact h.stamps.pop
    · -- the callback has at least as much room as before
      have hisr := h.isr
      unfold IsrInv at hisr ⊢
      rw [hret, hlen]
      cases hc : s.isr with
      | idle => trivial
      | store d =>
        simp only [hc] at hisr ⊢
        omega
      | advance d =>
        simp only [hc] at hisr ⊢
        exact ⟨by omega, hisr.2⟩
    · trivial

theorem step_inv {a : Action} (h : Inv s) (hs : step s a = some s') : Inv s' := by
  cases a with
  | uart event =>
    rw [step] at hs
    split_ifs at hs
    exact Option.some.inj hs ▸ uart_inv h event
  | isr => exact isr_inv h hs
  | readChar timeoutMs =>
    rw [step] at hs
    split_ifs at hs
    obtain rfl := Option.some.inj hs
    exact { h with reader := trivial }
  | reader => exact read_inv h hs

/-! ### The bounded queue -/

/-- The unread characters are a queue. -/
def queue (s : St) (h : Inv s) : Bounded UInt8 8192 where
  items := unread s
  fits := by
    have hbound := h.bound
    rw [unread_length]
    omega

theorem queue_congr (h : Inv s) (h' : Inv s') (hacc : s'.accepted = s.accepted)
    (hret : returned s' = returned s) : queue s' h' = queue s h := by
  refine Bounded.ext_items ?_
  show s'.accepted.drop (returned s').length = s.accepted.drop (returned s).length
  rw [hacc, hret]

theorem isr_refines (h : Inv s) (h' : Inv s') (hs : isrStep s = some s') :
    (effect s .isr).Takes (queue s h) (queue s' h') := by
  unfold isrStep at hs
  unfold effect
  cases hpc : s.isr with
  | idle => simp [hpc] at hs
  | store c =>
    simp only [hpc] at hs ⊢
    obtain rfl := Option.some.inj hs
    exact queue_congr h h' rfl rfl
  | advance c =>
    simp only [hpc] at hs ⊢
    obtain rfl := Option.some.inj hs
    exact Bounded.push_of_lt (List.drop_append_of_le_length h.order.length_le)

theorem read_refines (h : Inv s) (h' : Inv s') (hs : readStep s = some s') :
    (effect s .reader).Takes (queue s h) (queue s' h') := by
  have hreader := h.reader
  unfold readStep at hs
  unfold effect
  unfold ReadInv at hreader
  cases hpc : s.reader with
  | idle => simp [hpc] at hs
  | test timeoutMs waited =>
    simp only [hpc] at hs ⊢
    obtain rfl := Option.some.inj hs
    split_ifs with hempty
    · refine ⟨Bounded.pop_eq_none.mpr ?_, queue_congr h h' rfl rfl⟩
      show s.accepted.drop (returned s).length = []
      rw [h.empty_iff.mp hempty, List.drop_length]
    · exact queue_congr h h' rfl rfl
  | late timeoutMs waited =>
    simp only [hpc] at hs ⊢
    split_ifs at hs
    · obtain rfl := Option.some.inj hs
      exact queue_congr h h' rfl (returned_none s .idle)
    · obtain rfl := Option.some.inj hs
      exact queue_congr h h' rfl rfl
  | load =>
    simp only [hpc] at hs ⊢
    obtain rfl := Option.some.inj hs
    exact queue_congr h h' rfl rfl
  | advance c =>
    simp only [hpc] at hs hreader ⊢
    obtain rfl := Option.some.inj hs
    refine Bounded.pop_of_cons ?_
    show s.accepted.drop (returned s).length = c :: s.accepted.drop (returned _).length
    rw [returned_some, List.length_append, List.length_singleton]
    exact List.drop_eq_getElem?_toList_append.trans (by rw [hreader]; rfl)

/-- The callback does nothing to the queue, or refuses a character that there is no room for. -/
theorem uartCallback_refines {data : UInt32} (h : Inv s) (h' : Inv (uartCallback s (.rxChar data))) :
    (effect s (.uart (.rxChar data))).Takes (queue s h) (queue (uartCallback s (.rxChar data)) h') := by
  by_cases hroom : s.head - s.tail < consoleRxRingSize
  · have heffect : effect s (.uart (.rxChar data)) = .keep := if_pos hroom
    have hcallback : uartCallback s (.rxChar data) = { s with isr := .store data.toUInt8 } := if_pos hroom
    rw [heffect]
    refine queue_congr h h' ?_ ?_
    · rw [hcallback]
    · rw [hcallback]
      rfl
  · have heffect : effect s (.uart (.rxChar data)) = .refuse data.toUInt8 := if_neg hroom
    have hcallback : uartCallback s (.rxChar data) = { s with dropped := s.dropped ++ [data.toUInt8] } :=
      if_neg hroom
    have hfull : (s.accepted.drop (returned s).length).length = 8192 := by
      rw [h.room_iff] at hroom
      have hbound := h.bound
      rw [List.length_drop]
      omega
    rw [heffect]
    refine ⟨Bounded.push_eq_none.mpr hfull, queue_congr h h' ?_ ?_⟩
    · rw [hcallback]
    · rw [hcallback]
      rfl

/-- **Refinement.**  Every step does to the unread characters what a bounded queue does. -/
theorem step_refines {a : Action} (h : Inv s) (h' : Inv s') (hs : step s a = some s') :
    (effect s a).Takes (queue s h) (queue s' h') := by
  cases a with
  | uart event =>
    rw [step] at hs
    split_ifs at hs
    obtain rfl := Option.some.inj hs
    cases event with
    | rxChar data => exact uartCallback_refines h h'
    | _ => exact queue_congr h h' rfl rfl
  | isr => exact isr_refines h h' hs
  | readChar timeoutMs =>
    rw [step] at hs
    split_ifs at hs
    obtain rfl := Option.some.inj hs
    exact queue_congr h h' rfl rfl
  | reader => exact read_refines h h' hs

/-! ### Every step -/

theorem Inv.unread_nil_iff (h : Inv s) : unread s = [] ↔ s.tail = s.head := by
  rw [h.empty_iff, ← List.length_eq_zero_iff, unread_length s]
  have hle := h.order.length_le
  constructor
  · intro hzero
    exact (h.order.eq_of_length (by omega)).symm
  · intro heq
    rw [heq, Nat.sub_self]

theorem received_of_inv {a : Action} (h : Inv s) (hs : step s a = some s') : Received s a s' := by
  have hlen := unread_length s
  have hle := h.order.length_le
  have hbound := h.bound
  cases a with
  | uart event =>
    rw [step] at hs
    split_ifs at hs
    obtain rfl := Option.some.inj hs
    cases event with
    | rxChar data =>
      refine ⟨?_, fun hno => absurd rfl (hno data), by simp, by simp⟩
      rintro _ ⟨⟩
      by_cases hroom : s.head - s.tail < consoleRxRingSize
      · have hlt := h.room_iff.mp hroom
        rw [uartCallback, if_pos hroom]
        exact ⟨rfl, Or.inl ⟨by omega, rfl, rfl⟩⟩
      · have hfull := mt h.room_iff.mpr hroom
        rw [uartCallback, if_neg hroom]
        exact ⟨rfl, Or.inr ⟨by omega, rfl, rfl⟩⟩
    | _ => exact ⟨by simp, fun _ => ⟨rfl, rfl⟩, by simp, by simp⟩
  | isr =>
    cases hpc : s.isr with
    | idle => simp [step, isrStep, hpc] at hs
    | store c =>
      simp only [step, isrStep, hpc, Option.some.injEq] at hs
      subst hs
      exact ⟨by simp, fun _ => ⟨by simp [inFlight, hpc], rfl⟩, by simp [hpc], by simp [hpc]⟩
    | advance c =>
      simp only [step, isrStep, hpc, Option.some.injEq] at hs
      subst hs
      exact ⟨by simp, fun _ => ⟨by simp [inFlight, hpc], rfl⟩, by simp [hpc], by simp [hpc]⟩
  | readChar timeoutMs =>
    rw [step] at hs
    split_ifs at hs
    obtain rfl := Option.some.inj hs
    exact ⟨by simp, fun _ => ⟨rfl, rfl⟩, by simp, by simp⟩
  | reader =>
    -- the reader touches nothing of the callback
    have hsame : s'.accepted = s.accepted ∧ s'.isr = s.isr ∧ s'.dropped = s.dropped := by
      simp only [step, readStep] at hs
      split at hs
      · exact nomatch hs
      · exact (Option.some.inj hs) ▸ ⟨rfl, rfl, rfl⟩
      · split_ifs at hs <;> exact (Option.some.inj hs) ▸ ⟨rfl, rfl, rfl⟩
      · exact (Option.some.inj hs) ▸ ⟨rfl, rfl, rfl⟩
      · exact (Option.some.inj hs) ▸ ⟨rfl, rfl, rfl⟩
    obtain ⟨haccepted, hisr, hdropped⟩ := hsame
    refine ⟨by simp, fun _ => ⟨?_, hdropped⟩, by simp, by simp⟩
    rw [haccepted, inFlight, hisr, inFlight]

theorem read_of_inv {a : Action} (h : Inv s) (hs : step s a = some s') : Read s a s' := by
  constructor
  · rintro timeoutMs waited rfl hpc
    simp only [step, readStep, hpc, Option.some.injEq] at hs
    subst hs
    simp only [h.unread_nil_iff]
  · rintro rfl hpc
    have hreader := h.reader
    simp only [ReadInv, hpc] at hreader
    simp only [step, readStep, hpc, Option.some.injEq] at hs
    subst hs
    have hstamp := h.stamps.get (by rw [List.length_map, List.length_range]; exact hreader)
    rw [List.getElem?_map, List.getElem?_range hreader, Option.map_some] at hstamp
    rw [slotOf_of_toNat h.tail]
    refine ⟨(Option.some.inj hstamp).symm, _, ?_, rfl⟩
    rw [unread, List.head?_drop]
    exact h.chars.get hreader
  · rintro c rfl hpc
    simp only [step, readStep, hpc, Option.some.injEq] at hs
    subst hs
    exact returned_some s (s.tail + 1) c .idle

theorem fifoStep_of_inv {a : Action} (h : Inv s) (hs : step s a = some s') : FifoStep s a s' := by
  have h' := step_inv h hs
  have hreceived := received_of_inv h hs
  refine ⟨h'.order, h'.bound, fun hd => ?_, hreceived, read_of_inv h hs,
    queue s h, queue s' h', rfl, rfl, step_refines h h' hs⟩
  -- a character is dropped on arrival only
  by_cases hrx : ∃ data, a = .uart (.rxChar data)
  · obtain ⟨data, rfl⟩ := hrx
    obtain ⟨-, -, hkept⟩ | ⟨hfull, -⟩ := (hreceived.arrives data rfl).2
    · exact absurd hkept hd
    · have hlen := unread_length s
      have hle := h.order.length_le
      omega
  · exact absurd (hreceived.keeps fun data ha => hrx ⟨data, ha⟩).2 hd

/-- **Receive ring.**  Whatever the order of the callback's and the reader's accesses, and however often the
counters wrap, the ring is a bounded queue. -/
theorem rx_ring_fifo (as : List Action) : AllSteps step FifoStep as boot := by
  have hmeets : Meets step (fun _ _ => True) as boot := meets_of_forall (fun _ _ _ => trivial) boot
  exact allSteps_of_invariant (fun h _ hs => step_inv h hs) (fun h _ hs => fifoStep_of_inv h hs) boot_inv hmeets

end IotcRa8p1.App.RxRing
