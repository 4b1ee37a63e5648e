import IotcRa8p1.Kvs.Timeouts
import IotcRa8p1.Lib.Machine

/-!
# Receiving without waiting (`kvs_lwip_shim.c`)

FreeRTOS+TCP keeps one receive block time in the socket, the shim a flag in the slot.  `fcntl` sets both,
`setsockopt` the block time only; `recvfrom` with `MSG_DONTWAIT` sets the block time to zero and leaves it
there, and `recv` does not look at its flags.

A step is one call on the fd of a slot in use, with the flags or the option value of the call.
`established` is the receive timeout of the latest call that sets one, `dontWaited` says that a
`recvfrom` with `MSG_DONTWAIT` came behind it.
-/

namespace IotcRa8p1.Kvs.DontWait

open ByteMem Machine Timeouts

abbrev msgDontwait : BitVec 32 := 0x08

/-- `ipconfigSOCK_DEFAULT_RECEIVE_BLOCK_TIME` -/
abbrev sockDefaultReceiveBlockTime : ℕ := 2000

/-- `ipconfigSOCK_DEFAULT_SEND_BLOCK_TIME` -/
abbrev sockDefaultSendBlockTime : ℕ := 2000

/-- `socket`: the slot with a new FreeRTOS socket. -/
def socket (isTcp : Bool) : Slot := ⟨false, isTcp, sockDefaultReceiveBlockTime, sockDefaultSendBlockTime⟩

/-- `flags & MSG_DONTWAIT` -/
def dontWait (flags : BitVec 32) : Bool := decide (flags &&& msgDontwait ≠ 0)

/-- `recv`: the slot afterwards and the time `FreeRTOS_recv` waits at most. -/
def recv (sl : Slot) (_flags : BitVec 32) : Slot × ℕ := (sl, sl.receiveBlockTime)

/-- `recvfrom`: the slot afterwards and the time `FreeRTOS_recvfrom` waits at most. -/
def recvfrom (sl : Slot) (flags : BitVec 32) : Slot × ℕ :=
  let sl := if dontWait flags = true then setReceiveTimeout sl 0 else sl
  (sl, sl.receiveBlockTime)

structure St where
  slot : Slot
  established : ℕ
  dontWaited : Bool
  deriving DecidableEq

inductive Action where
  | fcntlSetfl (flags : BitVec 32)
  | setsockopt (optname : TimeoutOpt) (optval : Mem) (optlen : ℕ)
  | recv (flags : BitVec 32)
  | recvfrom (flags : BitVec 32)

def fresh (isTcp : Bool) : St := ⟨socket isTcp, sockDefaultReceiveBlockTime, false⟩

def step (tv : TimevalLayout) (s : St) : Action → Option St
  | .fcntlSetfl flags =>
    let sl := fcntlSetfl s.slot flags
    some ⟨sl, sl.receiveBlockTime, false⟩
  | .setsockopt .rcv optval optlen =>
    let sl := (setsockopt tv s.slot .rcv optval optlen).1
    some ⟨sl, sl.receiveBlockTime, false⟩
  | .setsockopt .snd optval optlen =>
    some { s with slot := (setsockopt tv s.slot .snd optval optlen).1 }
  | .recv flags => some { s with slot := (recv s.slot flags).1 }
  | .recvfrom flags =>
    some { s with slot := (recvfrom s.slot flags).1, dontWaited := s.dontWaited || dontWait flags }

/-- The time a receive without `MSG_DONTWAIT` waits at most. -/
def waits (s : St) : Action → Option ℕ
  | .recv flags => if dontWait flags = true then none else some (recv s.slot flags).2
  | .recvfrom flags => if dontWait flags = true then none else some (recvfrom s.slot flags).2
  | _ => none

/-- A receive without the flag waits as long as established, and `F_GETFL` tells whether that is no time. -/
structure PerCall (s : St) (a : Action) (s' : St) : Prop where
  timeout : ∀ t, waits s a = some t → t = s.established
  getfl : fcntlGetfl s'.slot = if s'.established = 0 then oNonblock else 0

/-- No receive without the flag comes behind a `recvfrom` with it, unless none waits anyway; a receive
timeout of no ticks is given exactly to a socket in nonblocking mode. -/
def Separate (tv : TimevalLayout) (s : St) : Action → Prop
  | .recv flags => dontWait flags = true ∨ s.dontWaited = false ∨ s.established = 0
  | .recvfrom flags => dontWait flags = true ∨ s.dontWaited = false ∨ s.established = 0
  | .setsockopt .rcv optval _ => (prvTvToTicks tv optval).1 = 0 ↔ s.slot.nonblock = true
  | _ => True

instance (tv : TimevalLayout) (s : St) (a : Action) : Decidable (Separate tv s a) := by
  unfold Separate
  split <;> infer_instance

/-- What the block time in the socket is, and what the flag says. -/
structure Inv (s : St) : Prop where
  blockTime : s.slot.receiveBlockTime = if s.dontWaited = true then 0 else s.established
  flag : s.slot.nonblock = true ↔ s.established = 0

theorem inv_fresh (isTcp : Bool) : Inv (fresh isTcp) :=
  ⟨rfl, by simp [fresh, socket]⟩

theorem getfl_iff (s : St) :
    fcntlGetfl s.slot = (if s.established = 0 then oNonblock else 0) ↔
      (s.slot.nonblock = true ↔ s.established = 0) := by
  rw [fcntlGetfl]
  by_cases h0 : s.established = 0 <;> cases s.slot.nonblock <;> simp [h0]

@[simp] theorem setsockopt_rcv (tv : TimevalLayout) (sl : Slot) (optval : Mem) (optlen : ℕ) :
    (setsockopt tv sl .rcv optval optlen).1 = setReceiveTimeout sl (prvTvToTicks tv optval).1 := rfl

@[simp] theorem setsockopt_snd (tv : TimevalLayout) (sl : Slot) (optval : Mem) (optlen : ℕ) :
    (setsockopt tv sl .snd optval optlen).1 = setSendTimeout sl (prvTvToTicks tv optval).1 := rfl

/-- `fcntl` leaves a flag and a block time that agree. -/
theorem inv_fcntlSetfl (sl : Slot) (flags : BitVec 32) :
    Inv ⟨fcntlSetfl sl flags, (fcntlSetfl sl flags).receiveBlockTime, false⟩ := by
  refine ⟨rfl, ?_⟩
  simp only [fcntlSetfl, setSendTimeout, setReceiveTimeout]
  cases decide (flags &&& oNonblock ≠ 0) <;> simp [portMaxDelay]

theorem Inv.recvfrom {s : St} (h : Inv s) (flags : BitVec 32) :
    Inv { s with
      slot := (DontWait.recvfrom s.slot flags).1, dontWaited := s.dontWaited || dontWait flags } := by
  have hflag := h.flag
  have htime := h.blockTime
  cases hd : dontWait flags with
  | false =>
    simp only [DontWait.recvfrom, hd, Bool.or_false, Bool.false_eq_true, if_false]
    exact ⟨htime, hflag⟩
  | true =>
    simp only [DontWait.recvfrom, hd, Bool.or_true, if_true]
    exact ⟨rfl, hflag⟩

/-- **Step lemma.** -/
theorem inv_step {tv : TimevalLayout} {s s' : St} {a : Action} (h : Inv s) (hok : Separate tv s a)
    (hstep : step tv s a = some s') : Inv s' := by
  cases a with
  | fcntlSetfl flags =>
    obtain rfl := Option.some.inj hstep
    exact inv_fcntlSetfl s.slot flags
  | setsockopt optname optval optlen =>
    cases optname with
    | rcv =>
      obtain rfl := Option.some.inj hstep
      exact ⟨rfl, hok.symm⟩
    | snd =>
      obtain rfl := Option.some.inj hstep
      exact ⟨h.blockTime, h.flag⟩
  | recv flags =>
    obtain rfl := Option.some.inj hstep
    exact ⟨h.blockTime, h.flag⟩
  | recvfrom flags =>
    obtain rfl := Option.some.inj hstep
    exact h.recvfrom flags

/-- The time a receive takes from the socket, by the invariant. -/
theorem Inv.established_iff {s : St} (h : Inv s) :
    s.slot.receiveBlockTime = s.established ↔ s.dontWaited = false ∨ s.established = 0 := by
  rw [h.blockTime]
  cases s.dontWaited with
  | false => simp
  | true => simp [eq_comm]

theorem perCall_iff {tv : TimevalLayout} {s s' : St} {a : Action} (h : Inv s)
    (hstep : step tv s a = some s') : PerCall s a s' ↔ Separate tv s a := by
  have hsplit : PerCall s a s' ↔ (∀ t, waits s a = some t → t = s.established) ∧
      (s'.slot.nonblock = true ↔ s'.established = 0) := by
    rw [← getfl_iff]
    exact ⟨fun hp => ⟨hp.timeout, hp.getfl⟩, fun hp => ⟨hp.1, hp.2⟩⟩
  rw [hsplit]
  cases a with
  | fcntlSetfl flags =>
    obtain rfl := Option.some.inj hstep
    simp [waits, Separate, (inv_fcntlSetfl s.slot flags).flag]
  | setsockopt optname optval optlen =>
    cases optname with
    | rcv =>
      obtain rfl := Option.some.inj hstep
      simp [waits, Separate, setReceiveTimeout, iff_comm]
    | snd =>
      obtain rfl := Option.some.inj hstep
      have hflag := h.flag
      simp [waits, Separate, setSendTimeout, hflag]
  | recv flags =>
    obtain rfl := Option.some.inj hstep
    have hflag := h.flag
    cases hd : dontWait flags with
    | true => simp [waits, Separate, recv, hd, hflag]
    | false => simp [waits, Separate, recv, hd, hflag, h.established_iff]
  | recvfrom flags =>
    obtain rfl := Option.some.inj hstep
    have hflag := (h.recvfrom flags).flag
    cases hd : dontWait flags with
    | true => simp [waits, Separate, hd, hflag]
    | false => simp [waits, Separate, recvfrom, hd, h.flag, h.established_iff]

/-- **Receiving without waiting.**  `MSG_DONTWAIT` is per call in a run exactly when the run keeps receives
with and without it apart and its timeouts agree with the mode. -/
theorem dontWait_perCall_iff (tv : TimevalLayout) (isTcp : Bool) (calls : List Action) :
    AllSteps (step tv) PerCall calls (fresh isTcp) ↔
      Meets (step tv) (Separate tv) calls (fresh isTcp) :=
  allSteps_iff_meets (I := Inv) inv_step perCall_iff (inv_fresh isTcp)

/-- A `recvfrom` with the flag, then one without it on a socket in blocking mode. -/
theorem dontWait_sticks :
    ¬ ∀ (tv : TimevalLayout) (isTcp : Bool) (calls : List Action),
      AllSteps (step tv) PerCall calls (fresh isTcp) := by
  intro h
  have hrun := h picolibc false ([.fcntlSetfl 0, .recvfrom msgDontwait] ++ [.recvfrom 0])
  exact absurd ((hrun.at rfl rfl).timeout 0 rfl) (by decide)

end IotcRa8p1.Kvs.DontWait
