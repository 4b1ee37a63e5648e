import Mathlib.Data.Nat.Notation
import Mathlib.Logic.Function.Basic
import Mathlib.Algebra.BigOperators.Group.List.Basic
import Mathlib.Algebra.Ring.Nat

/-!
# The socket shim of the KVS port

`kvs_lwip_shim.c` puts integer fds in front of FreeRTOS+TCP sockets: `socket`, `close`, `select` and the
calls that send or receive, over one table of 16 slots, with a socket set for each task that selects.
A step is one access to the table or one FreeRTOS call; the slots are read and written without the lock,
except in `socket`.

Two tasks take steps in any order, and so does the stack (`stack`), which alone knows what is ready.  They
use disjoint sets of fds: a call that names an fd the other one uses is not a step.  Timeouts, `errno`, the
addresses and the options of a socket are left out, and a wait may end at any look at the set.
-/

namespace IotcRa8p1.Kvs.Shim

/-- The tasks that the comment on `s_select_sets` names. -/
inductive TaskId where
  | wslay
  | ice
  deriving DecidableEq

def TaskId.other : TaskId → TaskId
  | .wslay => .ice
  | .ice => .wslay

/-- `eSELECT_READ` and `eSELECT_WRITE`. -/
@[ext] structure Bits where
  read : Bool
  write : Bool
  deriving DecidableEq

namespace Bits

def none : Bits := ⟨false, false⟩

/-- `eSELECT_ALL` -/
def all : Bits := ⟨true, true⟩

def any (b : Bits) : Bool := b.read || b.write

def or (b c : Bits) : Bits := ⟨b.read || c.read, b.write || c.write⟩

def and (b c : Bits) : Bits := ⟨b.read && c.read, b.write && c.write⟩

def clear (b c : Bits) : Bits := ⟨b.read && !c.read, b.write && !c.write⟩

def count (b : Bits) : ℕ := b.read.toNat + b.write.toNat

end Bits

/-! ### Sockets and sets of FreeRTOS+TCP -/

structure Sock where
  isTcp : Bool
  closed : Bool
  /-- `xSelectBits` -/
  selectBits : Bits
  /-- `pxSocketSet` -/
  socketSet : Option ℕ
  /-- `xSocketBits` -/
  socketBits : Bits
  /-- data to read, room to write -/
  ready : Bits
  deriving DecidableEq

/-- `FreeRTOS_socket` -/
def Sock.new (isTcp : Bool) : Sock := ⟨isTcp, false, .none, none, .none, .none⟩

/-- What `vSocketSelect` finds: the WRITE bit is not used for UDP. -/
def Sock.readyBits (k : Sock) : Bits := ⟨k.ready.read, k.isTcp && k.ready.write⟩

/-- `FreeRTOS_FD_SET` -/
def fdSet (set : ℕ) (bits : Bits) (k : Sock) : Sock :=
  if (k.selectBits.or bits).any = true then
    { k with selectBits := k.selectBits.or bits, socketSet := some set }
  else { k with selectBits := k.selectBits.or bits }

/-- `FreeRTOS_FD_CLR` -/
def fdClr (set : ℕ) (bits : Bits) (k : Sock) : Sock :=
  if (k.selectBits.clear bits).any = true then
    { k with selectBits := k.selectBits.clear bits, socketSet := some set }
  else { k with selectBits := k.selectBits.clear bits, socketSet := none }

/-- `FreeRTOS_FD_ISSET` -/
def fdIsSet (set : ℕ) (k : Sock) : Bits := if k.socketSet = some set then k.socketBits else .none

/-- What `vSocketSelect` does to one socket. -/
def socketSelect (set : ℕ) (k : Sock) : Sock :=
  if k.closed = false ∧ k.socketSet = some set then
    { k with socketBits := k.selectBits.and k.readyBits }
  else k

/-- The stack changes what is ready and raises events; `vSocketWakeUpUser` marks them for TCP. -/
def stackEvent (ready ev : Bits) (k : Sock) : Sock :=
  if k.isTcp = true ∧ k.socketSet.isSome = true then
    { k with ready := ready, socketBits := k.socketBits.or (ev.and k.selectBits) }
  else { k with ready := ready }

/-! ### State -/

/-- `SHIM_FD_BASE` -/
def fdBase : ℕ := 4

/-- `KVS_SHIM_MAX_SOCKETS` -/
def maxSockets : ℕ := 16

/-- `KVS_SHIM_MAX_SELECT_TASKS` -/
def maxSelectTasks : ℕ := 6

/-- `shim_slot_t` -/
structure Slot where
  sock : Option ℕ
  inUse : Bool

/-- The arguments of a `select`; a NULL set has no fd. -/
structure Request where
  maxfdp1 : ℕ
  readset : ℕ → Bool
  writeset : ℕ → Bool

namespace Request

/-- The bound of both loops. -/
def upper (q : Request) : ℕ := min (q.maxfdp1 - fdBase) maxSockets

/-- `bits` of the first loop. -/
def bits (q : Request) (i : ℕ) : Bits := ⟨q.readset (fdBase + i), q.writeset (fdBase + i)⟩

/-- What the call asks of a slot. -/
def asks (q : Request) (i : ℕ) : Bits := if i < q.upper then q.bits i else .none

def names (q : Request) (i : ℕ) : Bool := (q.asks i).any

end Request

/-- The locals of a `select`. -/
structure Frame where
  req : Request
  sel : ℕ
  /-- `rout` and `wout` -/
  out : ℕ → Bits
  nready : ℕ
  /-- the requested fds that were ready when the wait ended -/
  wanted : ℕ → Bits

/-- The next instruction of a `select`. -/
inductive SelectPc where
  | check (i : ℕ)
  | setOrClr (i : ℕ)
  | wait
  | checkOut (i : ℕ)
  | isSet (i : ℕ)
  | clr (i : ℕ)
  deriving DecidableEq

/-- The next instruction of a task. -/
inductive Pc where
  | idle
  /-- `xSemaphoreTake` of `socket`, with the new socket -/
  | take (k : ℕ)
  | scan (k i : ℕ)
  | store (k i : ℕ)
  /-- no slot: `FreeRTOS_closesocket` -/
  | drop (k : ℕ)
  /-- `FreeRTOS_FD_CLR` of `close`, on a set of the table -/
  | clrAll (i j : ℕ)
  | closesocket (i : ℕ)
  | notInUse (i : ℕ)
  | sockNull (i : ℕ)
  /-- the FreeRTOS call of `send`, `recv` and the like; what is ready behind it -/
  | io (i : ℕ) (ready : Bits)
  | select (f : Frame) (p : SelectPc)

structure Local where
  /-- the slots whose fd `socket` gave and `close` did not get -/
  held : ℕ → Bool
  pc : Pc

structure State where
  slots : ℕ → Slot
  /-- the tasks of `s_select_sets`; the set of an entry is its index -/
  selectSets : List TaskId
  /-- the holder of `s_lock` -/
  lock : Option TaskId
  socks : ℕ → Sock
  /-- the number of sockets made so far -/
  made : ℕ
  task : TaskId → Local
  /-- `configASSERT` failed -/
  halted : Bool

def boot : State where
  slots _ := ⟨none, false⟩
  selectSets := []
  lock := none
  socks _ := .new false
  made := 0
  task _ := ⟨fun _ => false, .idle⟩
  halted := false

/-! ### Which task uses an fd -/

/-- A slot, as one task sees it. -/
inductive Stage where
  | none
  /-- `socket` took it and has not stored the handle -/
  | taken
  /-- from `socket` to `FreeRTOS_closesocket` -/
  | up
  /-- closed, and still marked in use -/
  | down
  deriving DecidableEq

/-- How far a running `socket` or `close` is. -/
inductive Place where
  | away
  /-- `socket` has made a socket -/
  | carrying (k : ℕ)
  /-- and has taken a slot -/
  | taken (k i : ℕ)
  /-- `close` has not closed the socket -/
  | up (i : ℕ)
  /-- `close` has closed it -/
  | down (i : ℕ)
  /-- `close` has only the handle to clear -/
  | nulling (i : ℕ)
  deriving DecidableEq

def Pc.place : Pc → Place
  | .take k => .carrying k
  | .scan k _ => .carrying k
  | .store k i => .taken k i
  | .drop k => .carrying k
  | .clrAll i _ => .up i
  | .closesocket i => .up i
  | .notInUse i => .down i
  | .sockNull i => .nulling i
  | _ => .away

def Place.stage : Place → ℕ → Stage
  | .taken _ j, i => if i = j then .taken else .none
  | .up j, i => if i = j then .up else .none
  | .down j, i => if i = j then .down else .none
  | _, _ => .none

def Local.stage (l : Local) (i : ℕ) : Stage := if l.held i = true then .up else l.pc.place.stage i

/-- The running call names the fd of the slot. -/
def Pc.names : Pc → ℕ → Bool
  | .io j _, i => i == j
  | .select f _, i => f.req.names i
  | _, _ => false

def Local.uses (l : Local) (i : ℕ) : Bool := l.stage i != .none || l.pc.names i

/-- The task may name the fd: it is its own, or the other does not use it. -/
def State.mayName (s : State) (t : TaskId) (i : ℕ) : Bool :=
  (s.task t).held i || !(s.task t.other).uses i

/-! ### Steps -/

namespace State

variable (s : State) (t : TaskId)

def goto (pc : Pc) : State :=
  { s with task := Function.update s.task t { s.task t with pc := pc } }

def setHeld (i : ℕ) (b : Bool) : State :=
  let held := Function.update (s.task t).held i b
  { s with task := Function.update s.task t { s.task t with held := held } }

def setSlot (i : ℕ) (sl : Slot) : State := { s with slots := Function.update s.slots i sl }

def setSock (k : ℕ) (v : Sock) : State := { s with socks := Function.update s.socks k v }

/-- A call on a handle that `configASSERT` checks. -/
def onSock (i : ℕ) (f : Sock → Sock) : State :=
  match (s.slots i).sock with
  | some k => s.setSock k (f (s.socks k))
  | none => { s with halted := true }

/-- A call on a handle that checks it and fails on NULL. -/
def onValid (i : ℕ) (f : Sock → Sock) : State :=
  match (s.slots i).sock with
  | some k => s.setSock k (f (s.socks k))
  | none => s

/-- `vSocketSelect` -/
def vSocketSelect (set : ℕ) : State := { s with socks := fun k => socketSelect set (s.socks k) }

/-- The requested fds that are ready. -/
def readyOf (q : Request) (i : ℕ) : Bits :=
  if (s.slots i).inUse = true then
    match (s.slots i).sock with
    | some k => (q.asks i).and (s.socks k).readyBits
    | none => .none
  else .none

end State

/-- `prv_task_select_set`: the set of the task, or a new one when it is created. -/
def prvTaskSelectSet (sets : List TaskId) (t : TaskId) (created : Bool) : List TaskId × Option ℕ :=
  match sets.idxOf? t with
  | some i => (sets, some i)
  | none =>
    if sets.length < maxSelectTasks ∧ created = true then (sets ++ [t], some sets.length)
    else (sets, none)

/-- One instruction of a `select`. -/
def selectStep (s : State) (t : TaskId) (f : Frame) : SelectPc → State
  | .check i =>
    if i < f.req.upper then
      s.goto t (.select f (if (s.slots i).inUse = true then .setOrClr i else .check (i + 1)))
    else s.goto t (.select f .wait)
  | .setOrClr i =>
    if (f.req.bits i).any = true then
      ((s.onSock i (fdSet f.sel (f.req.bits i))).vSocketSelect f.sel).goto t
        (.select f (.check (i + 1)))
    else (s.onSock i (fdClr f.sel .all)).goto t (.select f (.check (i + 1)))
  -- the last look of `FreeRTOS_select` at the set
  | .wait =>
    (s.vSocketSelect f.sel).goto t (.select { f with wanted := s.readyOf f.req } (.checkOut 0))
  | .checkOut i =>
    if i < f.req.upper then
      s.goto t (.select f (if (s.slots i).inUse = true then .isSet i else .checkOut (i + 1)))
    else s.goto t .idle
  | .isSet i =>
    match (s.slots i).sock with
    | some k =>
      let got := (f.req.bits i).and (fdIsSet f.sel (s.socks k))
      s.goto t (.select
        { f with out := Function.update f.out i got, nready := f.nready + got.count } (.clr i))
    | none => { s with halted := true }
  | .clr i => (s.onSock i (fdClr f.sel .all)).goto t (.select f (.checkOut (i + 1)))

/-- One instruction of a task; `socket` does not give an fd that the other one names. -/
def run (s : State) (t : TaskId) : Option State :=
  match (s.task t).pc with
  | .idle => none
  | .take k =>
    if s.lock = none then some ({ s with lock := some t }.goto t (.scan k 0)) else none
  | .scan k i =>
    if i < maxSockets then
      if (s.slots i).inUse = true then some (s.goto t (.scan k (i + 1)))
      else if (s.task t.other).pc.names i = true then none
      else some ((s.setSlot i { s.slots i with inUse := true }).goto t (.store k i))
    else some ({ s with lock := none }.goto t (.drop k))
  | .store k i =>
    some ((({ s with lock := none }.setSlot i { s.slots i with sock := some k }).goto t .idle).setHeld
      t i true)
  | .drop k => some ((s.setSock k { s.socks k with closed := true }).goto t .idle)
  | .clrAll i j =>
    if j < maxSelectTasks then
      some ((if j < s.selectSets.length then s.onSock i (fdClr j .all) else s).goto t
        (.clrAll i (j + 1)))
    else some (s.goto t (.closesocket i))
  | .closesocket i =>
    some ((s.onValid i fun v => { v with closed := true }).goto t (.notInUse i))
  | .notInUse i => some ((s.setSlot i { s.slots i with inUse := false }).goto t (.sockNull i))
  | .sockNull i => some ((s.setSlot i { s.slots i with sock := none }).goto t .idle)
  | .io i ready => some ((s.onValid i fun v => { v with ready := ready }).goto t .idle)
  | .select f p => some (selectStep s t f p)

/-- A call of the shim, with what FreeRTOS and the heap answer. -/
inductive Call where
  | socket (isTcp made : Bool)
  | close (fd : ℕ)
  | io (fd : ℕ) (ready : Bits)
  | select (req : Request) (created : Bool)

/-- `prv_slot` -/
def prvSlot (s : State) (fd : ℕ) : Option ℕ :=
  if fdBase ≤ fd ∧ fd - fdBase < maxSockets ∧ (s.slots (fd - fdBase)).inUse = true then
    some (fd - fdBase)
  else none

/-- An idle task calls the shim. -/
def call (s : State) (t : TaskId) : Call → Option State
  | .socket isTcp made =>
    if made = true then
      some ({ s with socks := Function.update s.socks s.made (.new isTcp), made := s.made + 1 }.goto t
        (.take s.made))
    else some s
  | .close fd =>
    match prvSlot s fd with
    | some i =>
      if s.mayName t i = true then some ((s.goto t (.clrAll i 0)).setHeld t i false) else none
    | none => some s
  | .io fd ready =>
    match prvSlot s fd with
    | some i => if s.mayName t i = true then some (s.goto t (.io i ready)) else none
    | none => some s
  | .select q created =>
    if s.lock = none ∧ ∀ i < maxSockets, q.names i = true → s.mayName t i = true then
      match prvTaskSelectSet s.selectSets t created with
      | (sets, some sel) =>
        some ({ s with selectSets := sets }.goto t
          (.select ⟨q, sel, fun _ => .none, 0, fun _ => .none⟩ (.check 0)))
      | (_, none) => some s
    else none

inductive Action where
  | call (t : TaskId) (c : Call)
  | run (t : TaskId)
  /-- the stack, on an open socket -/
  | stack (k : ℕ) (ready ev : Bits)

def step (s : State) (a : Action) : Option State :=
  if s.halted = true then none
  else match a with
    | .call t c => match (s.task t).pc with
      | .idle => call s t c
      | _ => none
    | .run t => run s t
    | .stack k ready ev =>
      if k < s.made ∧ (s.socks k).closed = false then
        some (s.setSock k (stackEvent ready ev (s.socks k)))
      else none

/-! ### Fields behind the operations -/

section fields

variable (s : State) (t : TaskId) (pc : Pc) (i k : ℕ) (v : Sock) (sl : Slot) (b : Bool)

@[simp] theorem goto_slots : (s.goto t pc).slots = s.slots := rfl
@[simp] theorem goto_selectSets : (s.goto t pc).selectSets = s.selectSets := rfl
@[simp] theorem goto_socks : (s.goto t pc).socks = s.socks := rfl
@[simp] theorem goto_made : (s.goto t pc).made = s.made := rfl
@[simp] theorem goto_self : (s.goto t pc).task t = ⟨(s.task t).held, pc⟩ := Function.update_self ..
@[simp] theorem goto_held (u : TaskId) : ((s.goto t pc).task u).held = (s.task u).held := by
  by_cases h : u = t
  · rw [h, goto_self]
  · exact congrArg Local.held (Function.update_of_ne h ..)

theorem goto_ne {u : TaskId} (h : u ≠ t) : (s.goto t pc).task u = s.task u :=
  Function.update_of_ne h ..

@[simp] theorem setHeld_slots : (s.setHeld t i b).slots = s.slots := rfl
@[simp] theorem setHeld_selectSets : (s.setHeld t i b).selectSets = s.selectSets := rfl
@[simp] theorem setHeld_socks : (s.setHeld t i b).socks = s.socks := rfl
@[simp] theorem setHeld_made : (s.setHeld t i b).made = s.made := rfl
@[simp] theorem setHeld_self : (s.setHeld t i b).task t =
    ⟨Function.update (s.task t).held i b, (s.task t).pc⟩ := Function.update_self ..

theorem setHeld_ne {u : TaskId} (h : u ≠ t) : (s.setHeld t i b).task u = s.task u :=
  Function.update_of_ne h ..

@[simp] theorem setSlot_slots : (s.setSlot i sl).slots = Function.update s.slots i sl := rfl
@[simp] theorem setSlot_selectSets : (s.setSlot i sl).selectSets = s.selectSets := rfl
@[simp] theorem setSlot_socks : (s.setSlot i sl).socks = s.socks := rfl
@[simp] theorem setSlot_made : (s.setSlot i sl).made = s.made := rfl
@[simp] theorem setSlot_task : (s.setSlot i sl).task = s.task := rfl

@[simp] theorem setSock_slots : (s.setSock k v).slots = s.slots := rfl
@[simp] theorem setSock_selectSets : (s.setSock k v).selectSets = s.selectSets := rfl
@[simp] theorem setSock_socks : (s.setSock k v).socks = Function.update s.socks k v := rfl
@[simp] theorem setSock_made : (s.setSock k v).made = s.made := rfl
@[simp] theorem setSock_task : (s.setSock k v).task = s.task := rfl

@[simp] theorem vSocketSelect_slots : (s.vSocketSelect k).slots = s.slots := rfl
@[simp] theorem vSocketSelect_selectSets : (s.vSocketSelect k).selectSets = s.selectSets := rfl
@[simp] theorem vSocketSelect_made : (s.vSocketSelect k).made = s.made := rfl
@[simp] theorem vSocketSelect_task : (s.vSocketSelect k).task = s.task := rfl

variable (f : Sock → Sock)

@[simp] theorem onSock_slots : (s.onSock i f).slots = s.slots := by
  unfold State.onSock; split <;> rfl

@[simp] theorem onSock_selectSets : (s.onSock i f).selectSets = s.selectSets := by
  unfold State.onSock; split <;> rfl

@[simp] theorem onSock_made : (s.onSock i f).made = s.made := by
  unfold State.onSock; split <;> rfl

@[simp] theorem onSock_task : (s.onSock i f).task = s.task := by
  unfold State.onSock; split <;> rfl

@[simp] theorem onValid_slots : (s.onValid i f).slots = s.slots := by
  unfold State.onValid; split <;> rfl

@[simp] theorem onValid_selectSets : (s.onValid i f).selectSets = s.selectSets := by
  unfold State.onValid; split <;> rfl

@[simp] theorem onValid_made : (s.onValid i f).made = s.made := by
  unfold State.onValid; split <;> rfl

@[simp] theorem onValid_task : (s.onValid i f).task = s.task := by
  unfold State.onValid; split <;> rfl

variable {s f}

/-- What a call on one handle leaves of every socket, it leaves of all. -/
theorem onSock_keeps {β : Type*} (g : Sock → β) (hf : ∀ v, g (f v) = g v) (m : ℕ) :
    g ((s.onSock i f).socks m) = g (s.socks m) := by
  cases h : (s.slots i).sock with
  | none => simp only [State.onSock, h]
  | some k =>
    simp only [State.onSock, h, setSock_socks]
    by_cases hm : m = k
    · rw [hm, Function.update_self, hf]
    · rw [Function.update_of_ne hm]

theorem onValid_keeps {β : Type*} (g : Sock → β) (hf : ∀ v, g (f v) = g v) (m : ℕ) :
    g ((s.onValid i f).socks m) = g (s.socks m) := by
  cases h : (s.slots i).sock with
  | none => simp only [State.onValid, h]
  | some k =>
    simp only [State.onValid, h, setSock_socks]
    by_cases hm : m = k
    · rw [hm, Function.update_self, hf]
    · rw [Function.update_of_ne hm]

variable (f)

theorem onSock_of_some {s : State} {i k : ℕ} (h : (s.slots i).sock = some k) :
    s.onSock i f = s.setSock k (f (s.socks k)) := by
  simp only [State.onSock, h]

theorem onValid_of_some {s : State} {i k : ℕ} (h : (s.slots i).sock = some k) :
    s.onValid i f = s.setSock k (f (s.socks k)) := by
  simp only [State.onValid, h]

end fields

theorem fdSet_closed (set : ℕ) (bits : Bits) (v : Sock) : (fdSet set bits v).closed = v.closed := by
  unfold fdSet
  split <;> rfl

theorem fdClr_closed (set : ℕ) (bits : Bits) (v : Sock) : (fdClr set bits v).closed = v.closed := by
  unfold fdClr
  split <;> rfl

theorem socketSelect_closed (set : ℕ) (v : Sock) : (socketSelect set v).closed = v.closed := by
  unfold socketSelect
  split <;> rfl

theorem stackEvent_closed (ready ev : Bits) (v : Sock) :
    (stackEvent ready ev v).closed = v.closed := by
  unfold stackEvent
  split <;> rfl

end IotcRa8p1.Kvs.Shim
