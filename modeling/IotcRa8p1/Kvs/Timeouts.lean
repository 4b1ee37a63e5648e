import IotcRa8p1.Lib.ByteMem
import Mathlib.Data.BitVec

/-!
# Socket timeouts through the shim (`kvs_lwip_shim.c`, `tcp_sockets_wrapper.c`)

The TCP wrapper sets a timeout by pointing `setsockopt` at a `uint32_t` of milliseconds, with its size.
The shim takes the option value for a `struct timeval` and does not look at the size, so it reads the
bytes behind the four; `fcntl` has set both block times before.

The layout of `struct timeval` belongs to the C library: it is a parameter, with seconds of at least
four bytes and microseconds behind them.  The stack behind the option value is arbitrary.
-/

namespace IotcRa8p1.Kvs.Timeouts

open ByteMem

/-- The sizes of `tv_sec` and `tv_usec` (at the offset of the first). -/
structure TimevalLayout where
  secBytes : ℕ
  usecBytes : ℕ
  sec_word : 4 ≤ secBytes
  usec_pos : 0 < usecBytes

abbrev portMaxDelay : ℕ := 2 ^ 32 - 1

abbrev tcpSocketsTimeoutInfinite : ℕ := 0xFFFFFFFF

abbrev ipconfigUdpMaxSendBlockTimeTicks : ℕ := 15000

abbrev oNonblock : BitVec 32 := 0x4000

/-- `pdMS_TO_TICKS` at 1000 ticks a second, cut to `TickType_t`. -/
def pdMsToTicks (ms : ℕ) : ℕ := ms * 1000 / 1000 % 2 ^ 32

/-- A slot of the shim's table and the block times of the FreeRTOS socket in it. -/
structure Slot where
  nonblock : Bool
  isTcp : Bool
  receiveBlockTime : ℕ
  sendBlockTime : ℕ
  deriving DecidableEq

/-- `prvSetOptionTimeout` for `FREERTOS_SO_RCVTIMEO`. -/
def setReceiveTimeout (sl : Slot) (t : ℕ) : Slot := { sl with receiveBlockTime := t }

/-- `prvSetOptionTimeout` for `FREERTOS_SO_SNDTIMEO`: capped for UDP. -/
def setSendTimeout (sl : Slot) (t : ℕ) : Slot :=
  { sl with sendBlockTime :=
      if sl.isTcp = false ∧ ipconfigUdpMaxSendBlockTimeTicks < t then
        ipconfigUdpMaxSendBlockTimeTicks
      else t }

/-- A signed field converted to `uint64_t`. -/
def signedToU64 (bs : List UInt8) : ℕ :=
  if leNat bs < 2 ^ (8 * bs.length - 1) then leNat bs
  else (leNat bs + (2 ^ 64 - 2 ^ (8 * bs.length) % 2 ^ 64)) % 2 ^ 64

/-- `prv_tv_to_ticks`: the ticks, and how many bytes behind the pointer it read. -/
def prvTvToTicks (tv : TimevalLayout) (optval : Mem) : ℕ × ℕ :=
  let sec := signedToU64 (slice optval 0 tv.secBytes)
  let usec := signedToU64 (slice optval tv.secBytes tv.usecBytes)
  let ms := (sec * 1000 + usec / 1000) % 2 ^ 64
  (pdMsToTicks (ms % 2 ^ 32), tv.secBytes + tv.usecBytes)

/-- `SO_RCVTIMEO` and `SO_SNDTIMEO`. -/
inductive TimeoutOpt where
  | rcv
  | snd
  deriving DecidableEq

/-- One read of an option value: the bytes the caller gave and the bytes read. -/
structure OptRead where
  optlen : ℕ
  read : ℕ
  deriving DecidableEq

/-- `setsockopt` for the two timeouts on a slot in use. -/
def setsockopt (tv : TimevalLayout) (sl : Slot) (optname : TimeoutOpt) (optval : Mem) (optlen : ℕ) :
    Slot × OptRead :=
  let t := prvTvToTicks tv optval
  match optname with
  | .rcv => (setReceiveTimeout sl t.1, ⟨optlen, t.2⟩)
  | .snd => (setSendTimeout sl t.1, ⟨optlen, t.2⟩)

/-- `fcntl (F_GETFL)` -/
def fcntlGetfl (sl : Slot) : BitVec 32 := if sl.nonblock then oNonblock else 0

/-- `fcntl (F_SETFL)`: the flag, and both block times with it. -/
def fcntlSetfl (sl : Slot) (flags : BitVec 32) : Slot :=
  let sl := { sl with nonblock := decide (flags &&& oNonblock ≠ 0) }
  let sl := setReceiveTimeout sl (if sl.nonblock then 0 else portMaxDelay)
  setSendTimeout sl (if sl.nonblock then 0 else pdMsToTicks 10000)

/-- One call of `ConfigureTimeout`: the two timeouts, and what stands on the stack behind the two local
variables. -/
structure TimeoutCall where
  receiveTimeoutMs : BitVec 32
  sendTimeoutMs : BitVec 32
  behindReceive : Mem
  behindSend : Mem

/-- A `uint32_t` in front of other memory. -/
def wordAt (v : BitVec 32) (behind : Mem) : Mem := store behind 0 (leBytes 4 v.toNat)

/-- Both timeouts are `TCP_SOCKETS_TIMEOUT_INFINITE`. -/
def TimeoutCall.infinite (call : TimeoutCall) : Bool :=
  call.receiveTimeoutMs.toNat = tcpSocketsTimeoutInfinite &&
    call.sendTimeoutMs.toNat = tcpSocketsTimeoutInfinite

/-- `ConfigureTimeout` on a slot in use: the slot, and the option values read. -/
def configureTimeout (tv : TimevalLayout) (sl : Slot) (call : TimeoutCall) : Slot × List OptRead :=
  if call.receiveTimeoutMs = 0 ∧ call.sendTimeoutMs = 0 then
    (fcntlSetfl sl (fcntlGetfl sl ||| oNonblock), [])
  else
    let sl := fcntlSetfl sl (fcntlGetfl sl &&& ~~~oNonblock)
    -- set the timeout to 0 as waiting infinitely
    let realReceive := if call.infinite then 0 else call.receiveTimeoutMs
    let realSend := if call.infinite then 0 else call.sendTimeoutMs
    let r := setsockopt tv sl .rcv (wordAt realReceive call.behindReceive) 4
    let s := setsockopt tv r.1 .snd (wordAt realSend call.behindSend) 4
    (s.1, [r.2, s.2])

/-- A sequence of calls on one fd. -/
def configureTimeouts (tv : TimevalLayout) (sl : Slot) (calls : List TimeoutCall) : Slot :=
  calls.foldl (fun sl call => (configureTimeout tv sl call).1) sl

/-- The block times a call asks for. -/
def wantedTicks (call : TimeoutCall) : ℕ × ℕ :=
  if call.infinite then (portMaxDelay, portMaxDelay)
  else (pdMsToTicks call.receiveTimeoutMs.toNat, pdMsToTicks call.sendTimeoutMs.toNat)

/-- What a call must leave: the block times it asks for, and no byte read behind an option value. -/
structure TimeoutsSet (call : TimeoutCall) (r : Slot × List OptRead) : Prop where
  receive : r.1.receiveBlockTime = (wantedTicks call).1
  send : r.1.sendBlockTime = (wantedTicks call).2
  within : ∀ o ∈ r.2, o.read ≤ o.optlen

/-- A word in front of the bytes of a longer field does not change its lower half. -/
theorem signedToU64_mod {bs : List UInt8} (hlen : 4 ≤ bs.length) :
    signedToU64 bs % 2 ^ 32 = leNat bs % 2 ^ 32 := by
  have hdvd : 2 ^ 32 ∣ 2 ^ (8 * bs.length) % 2 ^ 64 :=
    (Nat.dvd_mod_iff (by norm_num)).mpr (pow_dvd_pow 2 (by omega))
  have hle : 2 ^ (8 * bs.length) % 2 ^ 64 ≤ 2 ^ 64 := (Nat.mod_lt _ (by norm_num)).le
  obtain ⟨k, hk⟩ := hdvd
  rw [signedToU64]
  split
  · rfl
  · omega

/-- The word itself is the lower half of a field that starts at it. -/
theorem leNat_wordAt_mod (v : BitVec 32) (behind : Mem) {n : ℕ} (hn : 4 ≤ n) :
    leNat (slice (wordAt v behind) 0 n) % 2 ^ 32 = v.toNat := by
  obtain ⟨k, rfl⟩ := Nat.exists_eq_add_of_le hn
  have hfour : slice (wordAt v behind) 0 4 = leBytes 4 v.toNat := by
    have h := slice_store behind 0 (leBytes 4 v.toNat)
    rwa [leBytes_length] at h
  rw [slice_add, hfour]
  have hv := v.isLt
  have hread := leNat_leBytes_of_lt 4 v.toNat (by omega)
  simp only [leBytes, leNat, List.cons_append, List.nil_append] at hread ⊢
  omega

/-- Whatever stands behind the word, the milliseconds are taken for seconds. -/
theorem prvTvToTicks_word (tv : TimevalLayout) (v : BitVec 32) (behind : Mem) :
    ∃ usec, (prvTvToTicks tv (wordAt v behind)).1 = (v.toNat * 1000 + usec / 1000) % 2 ^ 32 := by
  refine ⟨signedToU64 (slice (wordAt v behind) tv.secBytes tv.usecBytes), ?_⟩
  have hlen : 4 ≤ (slice (wordAt v behind) 0 tv.secBytes).length := by
    rw [slice_length]
    exact tv.sec_word
  have hsec := signedToU64_mod hlen
  rw [leNat_wordAt_mod v behind tv.sec_word] at hsec
  simp only [prvTvToTicks, pdMsToTicks]
  generalize signedToU64 (slice (wordAt v behind) 0 tv.secBytes) = sec at hsec ⊢
  omega

/-- A call that is not 0/0 has its two words read as a `struct timeval`. -/
theorem configureTimeout_reads (tv : TimevalLayout) (sl : Slot) {call : TimeoutCall}
    (h : ¬ (call.receiveTimeoutMs = 0 ∧ call.sendTimeoutMs = 0)) :
    (configureTimeout tv sl call).2 =
      [⟨4, tv.secBytes + tv.usecBytes⟩, ⟨4, tv.secBytes + tv.usecBytes⟩] := by
  rw [configureTimeout, if_neg h]
  rfl

/-- `fcntl` with the flag set clears both block times. -/
theorem fcntlSetfl_nonblock (sl : Slot) :
    (fcntlSetfl sl (fcntlGetfl sl ||| oNonblock)).receiveBlockTime = 0 ∧
      (fcntlSetfl sl (fcntlGetfl sl ||| oNonblock)).sendBlockTime = 0 := by
  have hflag : decide ((fcntlGetfl sl ||| oNonblock) &&& oNonblock ≠ 0) = true := by
    rw [fcntlGetfl]
    split <;> decide
  rw [fcntlSetfl, hflag]
  simp [setReceiveTimeout, setSendTimeout]

/-- **Timeouts through the shim.**  After any earlier calls, a call sets the block times it asks for,
reading only its option values, exactly when both timeouts are zero. -/
theorem configureTimeout_iff (tv : TimevalLayout) (sl : Slot) (calls : List TimeoutCall)
    (call : TimeoutCall) :
    TimeoutsSet call (configureTimeout tv (configureTimeouts tv sl calls) call) ↔
      call.receiveTimeoutMs = 0 ∧ call.sendTimeoutMs = 0 := by
  constructor
  · intro h
    by_contra hne
    have hread := h.within ⟨4, tv.secBytes + tv.usecBytes⟩ (by
      rw [configureTimeout_reads tv _ hne]
      exact List.mem_cons_self)
    have hword := tv.sec_word
    have hpos := tv.usec_pos
    simp only at hread
    omega
  · rintro ⟨hr, hs⟩
    rw [configureTimeout, if_pos ⟨hr, hs⟩]
    obtain ⟨hr0, hs0⟩ := fcntlSetfl_nonblock (configureTimeouts tv sl calls)
    have hwant : wantedTicks call = (0, 0) := by
      have hfinite : call.infinite = false := by simp [TimeoutCall.infinite, hr]
      simp [wantedTicks, hfinite, hr, hs, pdMsToTicks]
    exact ⟨by rw [hr0, hwant], by rw [hs0, hwant], fun _ h => nomatch h⟩

/-- picolibc on this target: 64-bit seconds, 32-bit microseconds. -/
def picolibc : TimevalLayout := ⟨8, 4, by decide, by decide⟩

def tcpSlot : Slot := ⟨false, true, portMaxDelay, 10000⟩

def tenSecondsCall : TimeoutCall := ⟨10000, 10000, fun _ => 0, fun _ => 0⟩

/-- Ten seconds for both. -/
theorem configureTimeout_tenSeconds :
    ¬ ∀ (tv : TimevalLayout) (sl : Slot) (calls : List TimeoutCall) (call : TimeoutCall),
      (0 < call.receiveTimeoutMs ∧ 0 < call.sendTimeoutMs) ∨
        (call.receiveTimeoutMs = 0 ∧ call.sendTimeoutMs = 0) →
      TimeoutsSet call (configureTimeout tv (configureTimeouts tv sl calls) call) := by
  intro h
  have hset := h picolibc tcpSlot [] tenSecondsCall (Or.inl ⟨by decide, by decide⟩)
  exact absurd hset.receive (by decide +kernel)

end IotcRa8p1.Kvs.Timeouts
