import IotcRa8p1.Lib.Machine
import Mathlib.Algebra.Order.Ring.Int
import Mathlib.Data.BitVec

/-!
# Sending on a full buffer (`FreeRTOS_Sockets.c`, `kvs_lwip_shim.c`, `tcp_sockets_wrapper.c`)

`KvsTCP_Sockets_Send` calls the shim's `send`, which calls `FreeRTOS_send`; each result passes through
`prv_map_err` and the `switch` of the wrapper.  The socket is a valid bound TCP socket with a send block
time of zero, so the send loop makes one round.

The machine is one caller with a byte stream to send, the stack that drains the transmit buffer and ends
the connection, and the allocator that answers when the buffer is first needed.  The caller sends any part
of what is left, keeps it on `TCP_SOCKETS_ERRNO_EWOULDBLOCK` and gives up on any other error.
-/

namespace IotcRa8p1.Kvs.Send

open Machine

/-- `eIPTCPState_t` -/
inductive TcpState where
  | closed
  | listen
  | connectSyn
  | synFirst
  | synReceived
  | established
  | finWait1
  | finWait2
  | closeWait
  | closing
  | lastAck
  | timeWait
  deriving DecidableEq, Repr

/-- The values of the enumeration. -/
def TcpState.number : TcpState → ℕ
  | .closed => 0
  | .listen => 1
  | .connectSyn => 2
  | .synFirst => 3
  | .synReceived => 4
  | .established => 5
  | .finWait1 => 6
  | .finWait2 => 7
  | .closeWait => 8
  | .closing => 9
  | .lastAck => 10
  | .timeWait => 11

/-- What `FreeRTOS_send` reads of a socket; `txStream` holds the bytes queued, once it is created. -/
structure TcpSock where
  state : TcpState
  mallocError : Bool
  finSent : Bool
  txStream : Option (List UInt8)
  deriving DecidableEq, Repr

abbrev einval : ℤ := 22

abbrev enomem : ℤ := 12

abbrev enospc : ℤ := 28

abbrev enotconn : ℤ := 128

abbrev ewouldblock : ℤ := 11

abbrev ipconfigTcpTxBufferLength : ℕ := 3000

/-- `ipconfigNETWORK_MTU - 40U` -/
abbrev ipconfigTcpMss : ℕ := 1460

/-- `FreeRTOS_round_up` -/
def freertosRoundUp (a d : ℕ) : ℕ := d * ((a + d - 1) / d)

/-- `uxTxStreamSize`, as `prvInitialiseTCPFields` sets it; the shim accepts `SO_SNDBUF` silently. -/
def txStreamSize : ℕ := freertosRoundUp ipconfigTcpTxBufferLength ipconfigTcpMss

/-- `LENGTH` of the stream that `prvTCPCreateStream` makes: a word more, in whole words. -/
def txStreamLength : ℕ := (txStreamSize + 4) / 4 * 4

/-- `uxStreamBufferGetSpace` of an empty stream, in which one byte stays free. -/
def txCapacity : ℕ := txStreamLength - 1

example : txCapacity = 4383 := rfl

/-- A `size_t` cast to `BaseType_t`. -/
def toBaseType (n : ℕ) : ℤ := (BitVec.ofNat 32 n).toInt

/-- `prvTCPSendCheck`; `created` is whether `prvTCPCreateStream` gets its memory. -/
def prvTcpSendCheck (k : TcpSock) (len : ℕ) (created : Bool) : TcpSock × ℤ :=
  if k.mallocError = true then (k, -enomem)
  else if k.state = .closed ∨ k.state = .closeWait ∨ k.state = .closing then (k, -enotconn)
  else if k.finSent = true then (k, 0)
  else if len = 0 then (k, 0)
  else
    match k.txStream with
    | some _ => (k, 1)
    | none =>
      if created = true then ({ k with txStream := some [] }, 1)
      else ({ k with mallocError := true, state := .closeWait }, -enomem)

/-- `prvTCPSendLoop` without blocking. -/
def prvTcpSendLoop (k : TcpSock) (data : List UInt8) : TcpSock × ℤ :=
  let queue := k.txStream.getD []
  let byteCount : ℤ := (txCapacity - queue.length : ℕ)
  let bytesLeft := toBaseType data.length
  if 0 < bytesLeft ∧ 0 < byteCount then
    let byteCount := if bytesLeft < byteCount then bytesLeft else byteCount
    ({ k with txStream := some (queue ++ data.take byteCount.toNat) }, byteCount)
  else (k, 0)

/-- `FreeRTOS_send` -/
def freertosSend (k : TcpSock) (data : List UInt8) (created : Bool) : TcpSock × ℤ :=
  let check := prvTcpSendCheck k data.length created
  if 0 < check.2 then
    let loop := prvTcpSendLoop check.1 data
    if loop.2 = 0 then
      (loop.1, if TcpState.established.number < loop.1.state.number then -enotconn else -enospc)
    else loop
  else check

/-- The values of `errno` named in the two translations; `EWOULDBLOCK` is `EAGAIN`. -/
inductive Errno where
  | eagain
  | eintr
  | enomem
  | enospc
  | epipe
  | econnreset
  | enotconn
  | einval
  | eio
  deriving DecidableEq, Repr

/-- `prv_map_err` -/
def prvMapErr (e : ℤ) : Errno :=
  if e = -ewouldblock ∨ e = 0 then .eagain
  else if e = -enomem then .enomem
  else if e = -enotconn then .enotconn
  else if e = -einval then .einval
  else .eio

/-- `send` of the shim, on a slot in use. -/
def send (k : TcpSock) (data : List UInt8) (created : Bool) : TcpSock × Except Errno ℤ :=
  let r := freertosSend k data created
  (r.1, if r.2 < 0 then .error (prvMapErr r.2) else .ok r.2)

abbrev tcpSocketsErrnoError : ℤ := -1

abbrev tcpSocketsErrnoEwouldblock : ℤ := -2

abbrev tcpSocketsErrnoEnotconn : ℤ := -6

/-- The `switch` of `KvsTCP_Sockets_Send`. -/
def sendStatus : Errno → ℤ
  | .eagain => tcpSocketsErrnoEwouldblock
  | .eintr => tcpSocketsErrnoEwouldblock
  | .enomem => tcpSocketsErrnoEwouldblock
  | .enospc => tcpSocketsErrnoEwouldblock
  | .epipe => tcpSocketsErrnoEnotconn
  | .econnreset => tcpSocketsErrnoEnotconn
  | _ => tcpSocketsErrnoError

/-- `KvsTCP_Sockets_Send` -/
def kvsTcpSocketsSend (k : TcpSock) (data : List UInt8) (created : Bool) : TcpSock × ℤ :=
  let r := send k data created
  match r.2 with
  | .ok n => (r.1, n)
  | .error e => (r.1, sendStatus e)

/-! ### A caller and the stack -/

/-- The connection is not open any more. -/
def TcpState.gone (t : TcpState) : Bool :=
  t = .closed || decide (TcpState.established.number < t.number)

/-- The bytes in the transmit buffer. -/
def TcpSock.queue (k : TcpSock) : List UInt8 := k.txStream.getD []

/-- How many bytes fit, after an allocation where one is needed. -/
def TcpSock.room (k : TcpSock) (created : Bool) : ℕ :=
  match k.txStream with
  | some queue => txCapacity - queue.length
  | none => if created = true then txCapacity else 0

/-- `rest` is what the caller has not got accepted of `stream`. -/
structure St where
  sock : TcpSock
  delivered : List UInt8
  stream : List UInt8
  rest : List UInt8
  givenUp : Bool
  deriving DecidableEq, Repr

inductive Action where
  | send (n : ℕ) (created : Bool)
  | drain (n : ℕ)
  | lose (state : TcpState) (finSent : Bool)
  deriving DecidableEq, Repr

/-- A connection just opened. -/
def opened (stream : List UInt8) : St :=
  ⟨⟨.established, false, false, none⟩, [], stream, stream, false⟩

def step (s : St) : Action → Option St
  | .send n created =>
    if s.givenUp = true then none
    else
      let r := kvsTcpSocketsSend s.sock (s.rest.take n) created
      some { s with
        sock := r.1
        rest := s.rest.drop r.2.toNat
        givenUp := decide (r.2 < 0 ∧ r.2 ≠ tcpSocketsErrnoEwouldblock) }
  | .drain n =>
    some { s with
      sock := { s.sock with txStream := s.sock.txStream.map (List.drop n) }
      delivered := s.delivered ++ s.sock.queue.take n }
  | .lose state finSent =>
    if state.gone = true then
      some { s with sock := { s.sock with state := state, finSent := finSent } }
    else none

/-- What one send must answer. -/
structure Answered (s : St) (n : ℕ) (created : Bool) : Prop where
  queued : 0 ≤ (kvsTcpSocketsSend s.sock (s.rest.take n) created).2 →
    (kvsTcpSocketsSend s.sock (s.rest.take n) created).1.queue = s.sock.queue ++
      (s.rest.take n).take (kvsTcpSocketsSend s.sock (s.rest.take n) created).2.toNat
  codes : (kvsTcpSocketsSend s.sock (s.rest.take n) created).2 < 0 →
    (kvsTcpSocketsSend s.sock (s.rest.take n) created).2 = tcpSocketsErrnoEwouldblock ∨
      (kvsTcpSocketsSend s.sock (s.rest.take n) created).2 = tcpSocketsErrnoEnotconn
  full : (kvsTcpSocketsSend s.sock (s.rest.take n) created).2 = tcpSocketsErrnoEwouldblock ↔
    s.sock.state.gone = false ∧ s.rest.take n ≠ [] ∧ s.sock.room created = 0
  dead : (kvsTcpSocketsSend s.sock (s.rest.take n) created).2 = tcpSocketsErrnoEnotconn ↔
    s.sock.state.gone = true

/-- Every send is answered as it must be, and the stream is delivered, queued or still to be sent, in
order. -/
structure BackPressure (s : St) (a : Action) (s' : St) : Prop where
  answered : ∀ n created, a = .send n created → Answered s n created
  whole : s'.delivered ++ s'.sock.queue ++ s'.rest = s'.stream

/-- At a send the connection is open, and there is nothing to send, or a byte fits, or the buffer is to be
created and there is no memory. -/
def Fits (s : St) : Action → Prop
  | .send n created =>
    s.sock.state.gone = false ∧
      (s.rest.take n = [] ∨ (0 < s.sock.room created ∧ 0 < toBaseType (s.rest.take n).length) ∨
        s.sock.txStream = none ∧ created = false)
  | _ => True

instance (s : St) (a : Action) : Decidable (Fits s a) := by
  unfold Fits
  split <;> infer_instance

/-! ### What is queued -/

theorem toBaseType_le (n : ℕ) : toBaseType n ≤ n := by
  rw [toBaseType, BitVec.toInt_eq_toNat_cond, BitVec.toNat_ofNat]
  have hmod := Nat.mod_le n (2 ^ 32)
  split <;> omega

theorem prvTcpSendCheck_queue (k : TcpSock) (len : ℕ) (created : Bool) :
    (prvTcpSendCheck k len created).1.queue = k.queue := by
  rw [prvTcpSendCheck]
  split_ifs
  · rfl
  · rfl
  · rfl
  · rfl
  · cases hq : k.txStream with
    | some queue => rfl
    | none => simp [TcpSock.queue, hq]
  · cases hq : k.txStream with
    | some queue => rfl
    | none => simp [TcpSock.queue, hq]

/-- **Loop spec.**  The loop queues what it counts. -/
theorem prvTcpSendLoop_spec (k : TcpSock) (data : List UInt8) :
    (prvTcpSendLoop k data).1.queue = k.queue ++ data.take (prvTcpSendLoop k data).2.toNat ∧
      0 ≤ (prvTcpSendLoop k data).2 ∧ (prvTcpSendLoop k data).2 ≤ data.length := by
  have hle := toBaseType_le data.length
  simp only [prvTcpSendLoop]
  split_ifs with hpos hmin
  · exact ⟨rfl, by omega, by omega⟩
  · exact ⟨rfl, by omega, by omega⟩
  · simp

theorem freertosSend_queue (k : TcpSock) (data : List UInt8) (created : Bool) :
    (freertosSend k data created).1.queue =
        k.queue ++ data.take (freertosSend k data created).2.toNat ∧
      (freertosSend k data created).2 ≤ data.length := by
  have hcheck := prvTcpSendCheck_queue k data.length created
  obtain ⟨hqueue, _, hlen⟩ := prvTcpSendLoop_spec (prvTcpSendCheck k data.length created).1 data
  simp only [freertosSend]
  split_ifs with hpos hzero hstate
  · rw [hzero, hcheck] at hqueue
    exact ⟨by simpa [enotconn] using hqueue, by rw [enotconn]; omega⟩
  · rw [hzero, hcheck] at hqueue
    exact ⟨by simpa [enospc] using hqueue, by rw [enospc]; omega⟩
  · exact ⟨hqueue.trans (by rw [hcheck]), hlen⟩
  · rw [Int.toNat_of_nonpos (by omega)]
    exact ⟨by simpa using hcheck, by omega⟩

/-- What a send leaves of a socket that is still open. -/
structure SameSock (k k' : TcpSock) : Prop where
  state : k'.state = k.state
  mallocError : k'.mallocError = k.mallocError
  finSent : k'.finSent = k.finSent

theorem prvTcpSendCheck_same (k : TcpSock) (len : ℕ) (created : Bool)
    (hopen : (prvTcpSendCheck k len created).1.state.gone = false) :
    SameSock k (prvTcpSendCheck k len created).1 := by
  rw [prvTcpSendCheck] at hopen ⊢
  split_ifs at hopen ⊢
  · exact ⟨rfl, rfl, rfl⟩
  · exact ⟨rfl, rfl, rfl⟩
  · exact ⟨rfl, rfl, rfl⟩
  · exact ⟨rfl, rfl, rfl⟩
  · cases k.txStream <;> exact ⟨rfl, rfl, rfl⟩
  · cases hq : k.txStream with
    | some queue => exact ⟨rfl, rfl, rfl⟩
    | none =>
      rw [hq] at hopen
      contradiction

theorem prvTcpSendLoop_same (k : TcpSock) (data : List UInt8) :
    SameSock k (prvTcpSendLoop k data).1 := by
  simp only [prvTcpSendLoop]
  split_ifs <;> exact ⟨rfl, rfl, rfl⟩

theorem freertosSend_same (k : TcpSock) (data : List UInt8) (created : Bool)
    (hopen : (freertosSend k data created).1.state.gone = false) :
    SameSock k (freertosSend k data created).1 := by
  have hloop := prvTcpSendLoop_same (prvTcpSendCheck k data.length created).1 data
  have hcheck := prvTcpSendCheck_same k data.length created
  have hsend : (freertosSend k data created).1 = (prvTcpSendLoop (prvTcpSendCheck k data.length created).1 data).1 ∨
      (freertosSend k data created).1 = (prvTcpSendCheck k data.length created).1 := by
    simp only [freertosSend]
    split_ifs <;> simp
  obtain hsend | hsend := hsend
  · rw [hsend] at hopen ⊢
    rw [hloop.state] at hopen
    have hsame := hcheck hopen
    exact ⟨hloop.state.trans hsame.state, hloop.mallocError.trans hsame.mallocError,
      hloop.finSent.trans hsame.finSent⟩
  · rw [hsend] at hopen ⊢
    exact hcheck hopen

theorem sendStatus_neg (e : Errno) : sendStatus e < 0 := by
  cases e <;> decide

theorem kvsTcpSocketsSend_ok {k : TcpSock} {data : List UInt8} {created : Bool}
    (h : 0 ≤ (freertosSend k data created).2) :
    kvsTcpSocketsSend k data created = freertosSend k data created := by
  simp only [kvsTcpSocketsSend, send, if_neg (not_lt.mpr h)]

theorem kvsTcpSocketsSend_error {k : TcpSock} {data : List UInt8} {created : Bool}
    (h : (freertosSend k data created).2 < 0) :
    kvsTcpSocketsSend k data created =
      ((freertosSend k data created).1, sendStatus (prvMapErr (freertosSend k data created).2)) := by
  simp only [kvsTcpSocketsSend, send, if_pos h]

theorem kvsTcpSocketsSend_sock (k : TcpSock) (data : List UInt8) (created : Bool) :
    (kvsTcpSocketsSend k data created).1 = (freertosSend k data created).1 := by
  by_cases hneg : (freertosSend k data created).2 < 0
  · rw [kvsTcpSocketsSend_error hneg]
  · rw [kvsTcpSocketsSend_ok (not_lt.mp hneg)]

/-- **Send spec.**  Exactly the bytes counted are queued, none on an error. -/
theorem kvsTcpSocketsSend_queue (k : TcpSock) (data : List UInt8) (created : Bool) :
    (kvsTcpSocketsSend k data created).1.queue =
        k.queue ++ data.take (kvsTcpSocketsSend k data created).2.toNat ∧
      (kvsTcpSocketsSend k data created).2.toNat ≤ data.length := by
  obtain ⟨hqueue, hlen⟩ := freertosSend_queue k data created
  by_cases hneg : (freertosSend k data created).2 < 0
  · have hstatus := sendStatus_neg (prvMapErr (freertosSend k data created).2)
    rw [kvsTcpSocketsSend_error hneg, Int.toNat_of_nonpos hstatus.le]
    rw [Int.toNat_of_nonpos hneg.le] at hqueue
    exact ⟨hqueue, Nat.zero_le _⟩
  · rw [kvsTcpSocketsSend_ok (not_lt.mp hneg)]
    exact ⟨hqueue, by omega⟩

/-! ### What is answered -/

/-- No error of FreeRTOS becomes one that the wrapper takes for a dead connection. -/
theorem kvsTcpSocketsSend_ne_enotconn (k : TcpSock) (data : List UInt8) (created : Bool) :
    (kvsTcpSocketsSend k data created).2 ≠ tcpSocketsErrnoEnotconn := by
  have hmap : ∀ e, sendStatus (prvMapErr e) ≠ tcpSocketsErrnoEnotconn := by
    intro e
    rw [prvMapErr]
    split_ifs <;> decide
  by_cases hneg : (freertosSend k data created).2 < 0
  · rw [kvsTcpSocketsSend_error hneg]
    exact hmap _
  · rw [kvsTcpSocketsSend_ok (not_lt.mp hneg), tcpSocketsErrnoEnotconn]
    omega

section

variable {k : TcpSock} (hopen : k.state.gone = false) (hmalloc : k.mallocError = false)
  (hfin : k.finSent = false)

include hopen hmalloc hfin

/-- The check of an open connection. -/
theorem prvTcpSendCheck_open (len : ℕ) (created : Bool) :
    prvTcpSendCheck k len created =
      if len = 0 then (k, 0)
      else
        match k.txStream with
        | some _ => (k, 1)
        | none =>
          if created = true then ({ k with txStream := some [] }, 1)
          else ({ k with mallocError := true, state := .closeWait }, -enomem) := by
  have hstate : ¬ (k.state = .closed ∨ k.state = .closeWait ∨ k.state = .closing) := by
    rintro (h | h | h) <;> rw [h] at hopen <;> contradiction
  rw [prvTcpSendCheck, if_neg (by simp [hmalloc]), if_neg hstate, if_neg (by simp [hfin])]

theorem send_empty (created : Bool) : (kvsTcpSocketsSend k [] created).2 = 0 := by
  have hcheck := prvTcpSendCheck_open hopen hmalloc hfin 0 created
  rw [if_pos rfl] at hcheck
  have hsend : freertosSend k [] created = (k, 0) := by
    simp only [freertosSend, List.length_nil, hcheck]
    exact if_neg (by decide)
  rw [kvsTcpSocketsSend_ok (by rw [hsend]), hsend]

theorem send_noMemory {data : List UInt8} (hne : data ≠ []) (hnone : k.txStream = none) :
    (kvsTcpSocketsSend k data false).2 = tcpSocketsErrnoEwouldblock := by
  have hcheck := prvTcpSendCheck_open hopen hmalloc hfin data.length false
  rw [if_neg (by simpa using hne)] at hcheck
  simp only [hnone, Bool.false_eq_true, if_false] at hcheck
  have hsend : (freertosSend k data false).2 = -enomem := by
    simp only [freertosSend, hcheck]
    rfl
  rw [kvsTcpSocketsSend_error (by rw [hsend]; decide), hsend]
  rfl

/-- With a buffer, the answer is the loop's. -/
theorem send_stream {data queue : List UInt8} {created : Bool} (hne : data ≠ [])
    (hqueue : k.txStream = some queue ∨ k.txStream = none ∧ created = true ∧ queue = []) :
    (kvsTcpSocketsSend k data created).2 =
      if 0 < toBaseType data.length ∧ queue.length < txCapacity then
        min (toBaseType data.length) (txCapacity - queue.length : ℕ)
      else tcpSocketsErrnoError := by
  have hcheck : prvTcpSendCheck k data.length created = ({ k with txStream := some queue }, 1) := by
    rw [prvTcpSendCheck_open hopen hmalloc hfin, if_neg (by simpa using hne)]
    obtain hsome | ⟨hnone, hcreated, rfl⟩ := hqueue
    · simp only [hsome]
      rw [← hsome]
    · simp only [hnone, hcreated, if_true]
  have hestablished : ¬ TcpState.established.number < k.state.number := by
    intro h
    simp [TcpState.gone, h] at hopen
  have hsend : freertosSend k data created =
      if (prvTcpSendLoop { k with txStream := some queue } data).2 = 0 then
        ((prvTcpSendLoop { k with txStream := some queue } data).1,
          if TcpState.established.number <
            (prvTcpSendLoop { k with txStream := some queue } data).1.state.number then -enotconn
          else -enospc)
      else prvTcpSendLoop { k with txStream := some queue } data := by
    simp only [freertosSend, hcheck]
    exact if_pos (by decide)
  by_cases hfits : 0 < toBaseType data.length ∧ queue.length < txCapacity
  · have hloop : (prvTcpSendLoop { k with txStream := some queue } data).2 =
        min (toBaseType data.length) (txCapacity - queue.length : ℕ) := by
      simp only [prvTcpSendLoop, Option.getD_some]
      rw [if_pos ⟨hfits.1, by omega⟩]
      simp only
      split_ifs <;> omega
    obtain ⟨hpos, hroom⟩ := hfits
    rw [if_neg (by omega)] at hsend
    rw [kvsTcpSocketsSend_ok (by rw [hsend]; omega), hsend, hloop, if_pos ⟨hpos, hroom⟩]
  · have hloop : prvTcpSendLoop { k with txStream := some queue } data =
        ({ k with txStream := some queue }, 0) := by
      simp only [prvTcpSendLoop, Option.getD_some]
      exact if_neg (by omega)
    rw [hloop, if_pos rfl, if_neg hestablished] at hsend
    rw [kvsTcpSocketsSend_error (by rw [hsend]; show -enospc < 0; decide), hsend, if_neg hfits]
    rfl

end

/-! ### Runs -/

/-- An open connection has had no failed allocation and sent no FIN; nothing of the stream is lost. -/
structure Inv (s : St) : Prop where
  healthy : s.sock.state.gone = false → s.sock.mallocError = false ∧ s.sock.finSent = false
  whole : s.delivered ++ s.sock.queue ++ s.rest = s.stream

theorem inv_opened (stream : List UInt8) : Inv (opened stream) :=
  ⟨fun _ => ⟨rfl, rfl⟩, rfl⟩

/-- A send answers as it must exactly when the connection is open and something fits. -/
theorem answered_iff {s : St} (h : Inv s) (n : ℕ) (created : Bool) :
    Answered s n created ↔ Fits s (.send n created) := by
  obtain ⟨hqueue, _⟩ := kvsTcpSocketsSend_queue s.sock (s.rest.take n) created
  have hdead := kvsTcpSocketsSend_ne_enotconn s.sock (s.rest.take n) created
  cases hgone : s.sock.state.gone with
  | true =>
    constructor
    · intro ha
      exact absurd (ha.dead.mpr hgone) hdead
    · intro hf
      exact absurd hf.1 (by simp [hgone])
  | false =>
    obtain ⟨hmalloc, hfin⟩ := h.healthy hgone
    simp only [Fits, hgone, true_and]
    have hanswered : Answered s n created ↔
        ((kvsTcpSocketsSend s.sock (s.rest.take n) created).2 < 0 →
          (kvsTcpSocketsSend s.sock (s.rest.take n) created).2 = tcpSocketsErrnoEwouldblock) ∧
        ((kvsTcpSocketsSend s.sock (s.rest.take n) created).2 = tcpSocketsErrnoEwouldblock ↔
          s.rest.take n ≠ [] ∧ s.sock.room created = 0) := by
      constructor
      · intro ha
        refine ⟨fun hneg => (ha.codes hneg).resolve_right hdead, ?_⟩
        rw [ha.full, hgone]
        exact and_iff_right rfl
      · rintro ⟨hcodes, hfull⟩
        refine ⟨fun _ => hqueue, fun hneg => Or.inl (hcodes hneg), ?_, ?_⟩
        · rw [hfull, hgone]
          exact (and_iff_right rfl).symm
        · simp [hgone, hdead]
    rw [hanswered]
    by_cases hempty : s.rest.take n = []
    · simp [hempty, send_empty hgone hmalloc hfin]
    · by_cases hnone : s.sock.txStream = none ∧ created = false
      · obtain ⟨hnone, rfl⟩ := hnone
        simp [hempty, hnone, send_noMemory hgone hmalloc hfin hempty hnone, TcpSock.room]
      · obtain ⟨queue, hstream, hroom⟩ : ∃ queue, (s.sock.txStream = some queue ∨
            s.sock.txStream = none ∧ created = true ∧ queue = []) ∧
              s.sock.room created = txCapacity - queue.length := by
          cases hq : s.sock.txStream with
          | some queue => exact ⟨queue, Or.inl rfl, by simp [TcpSock.room, hq]⟩
          | none =>
            have hcreated : created = true := by simpa [hq] using hnone
            exact ⟨[], Or.inr ⟨rfl, hcreated, rfl⟩, by simp [TcpSock.room, hq, hcreated]⟩
        have hsend := send_stream hgone hmalloc hfin hempty hstream
        simp only [hempty, hnone, hroom, ne_eq, not_false_eq_true, true_and, false_or, or_false]
        rw [hsend]
        by_cases hfits : 0 < toBaseType (s.rest.take n).length ∧ queue.length < txCapacity
        · rw [if_pos hfits]
          simp only [tcpSocketsErrnoEwouldblock]
          omega
        · rw [if_neg hfits]
          simp only [tcpSocketsErrnoError, tcpSocketsErrnoEwouldblock]
          omega

theorem take_take_append_drop (rest : List UInt8) {n r : ℕ} (h : r ≤ (rest.take n).length) :
    (rest.take n).take r ++ rest.drop r = rest := by
  rw [List.take_take, min_eq_left (h.trans (List.length_take_le n rest)), List.take_append_drop]

/-- **Step lemma.** -/
theorem inv_step {s s' : St} {a : Action} (h : Inv s) (hstep : step s a = some s') : Inv s' := by
  have hwhole := h.whole
  cases a with
  | send n created =>
    simp only [step, Option.ite_none_left_eq_some, Option.some.injEq] at hstep
    obtain ⟨_, rfl⟩ := hstep
    obtain ⟨hqueue, hlen⟩ := kvsTcpSocketsSend_queue s.sock (s.rest.take n) created
    refine ⟨fun hopen => ?_, ?_⟩
    · simp only [kvsTcpSocketsSend_sock] at hopen ⊢
      have hsame := freertosSend_same s.sock (s.rest.take n) created hopen
      rw [hsame.mallocError, hsame.finSent]
      exact h.healthy (by rwa [hsame.state] at hopen)
    · simp only [hqueue]
      rw [← hwhole]
      simp only [List.append_assoc, take_take_append_drop s.rest hlen]
  | drain n =>
    obtain rfl := Option.some.inj hstep
    refine ⟨h.healthy, ?_⟩
    rw [← hwhole]
    cases hq : s.sock.txStream with
    | none => simp [TcpSock.queue, hq]
    | some queue => simp [TcpSock.queue, hq]
  | lose state finSent =>
    simp only [step, Option.ite_none_right_eq_some, Option.some.injEq] at hstep
    obtain ⟨hgone, rfl⟩ := hstep
    exact ⟨fun hopen => absurd (hgone.symm.trans hopen) (by simp), hwhole⟩

/-- **Back-pressure.**  Every send of a run is answered as it must be exactly when at every send the
connection is open and something fits, or nothing is sent, or the buffer cannot be created. -/
theorem backPressure_iff (stream : List UInt8) (actions : List Action) :
    AllSteps step BackPressure actions (opened stream) ↔ Meets step Fits actions (opened stream) := by
  refine allSteps_iff_meets (I := Inv) (fun h _ hstep => inv_step h hstep) ?_ (inv_opened stream)
  intro s a s' h hstep
  have hwhole := (inv_step h hstep).whole
  cases a with
  | send n created =>
    rw [← answered_iff h]
    constructor
    · intro hb
      exact hb.answered n created rfl
    · intro ha
      refine ⟨?_, hwhole⟩
      rintro m c ⟨⟩
      exact ha
  | drain n => exact iff_of_true ⟨by simp, hwhole⟩ trivial
  | lose state finSent => exact iff_of_true ⟨by simp, hwhole⟩ trivial

/-- The buffer is full at the second send. -/
theorem backPressure_full :
    ¬ ∀ (stream : List UInt8) (actions : List Action),
      AllSteps step BackPressure actions (opened stream) := by
  intro h
  have hsend := (h (List.replicate 4384 0) [.send 4383 true, .send 1 true]).mono
    (Q := fun s a _ => a = .send 1 true →
      (kvsTcpSocketsSend s.sock (s.rest.take 1) true).2 ≠ tcpSocketsErrnoError)
    fun s a s' hb ha herr => by
      obtain hcode | hcode := (hb.answered 1 true ha).codes (by rw [herr]; decide) <;>
        rw [herr] at hcode <;> contradiction
  exact absurd hsend (by decide +kernel)

end IotcRa8p1.Kvs.Send
