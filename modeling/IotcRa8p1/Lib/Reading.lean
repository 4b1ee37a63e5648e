import IotcRa8p1.Lib.ByteMem

/-!
# Which bytes a function reads

A `Reading` is a function of a byte memory that also gives the offsets it reads, in order.  A C function is
written as one in the order of its accesses; `value` is what it returns and `reads` what it has touched, and
both go through the operations by the lemmas below.
-/

namespace IotcRa8p1.ByteMem

/-- A value and the offsets read for it. -/
def Reading (α : Type) := Mem → α × List ℕ

namespace Reading

variable {α β : Type}

def value (x : Reading α) (m : Mem) : α := (x m).1

def reads (x : Reading α) (m : Mem) : List ℕ := (x m).2

instance : Monad Reading where
  pure a := fun _ => (a, [])
  bind x f := fun m => ((f (x m).1 m).1, (x m).2 ++ (f (x m).1 m).2)

/-- The `n` bytes from `off` on, all of them read. -/
def fetch (off n : ℕ) : Reading (List UInt8) := fun m => (slice m off n, List.range' off n)

/-- A loop over `n` bytes that reads one a turn. -/
def scan (f : β → UInt8 → β) : ℕ → ℕ → β → Reading β
  | _, 0, acc => fun _ => (acc, [])
  | off, n + 1, acc => fun m =>
    let rest := scan f (off + 1) n (f acc (m off)) m
    (rest.1, off :: rest.2)

@[simp] theorem value_pure (a : α) (m : Mem) : (pure a : Reading α).value m = a := rfl

@[simp] theorem reads_pure (a : α) (m : Mem) : (pure a : Reading α).reads m = [] := rfl

@[simp] theorem value_bind (x : Reading α) (f : α → Reading β) (m : Mem) :
    (x >>= f).value m = (f (x.value m)).value m := rfl

@[simp] theorem reads_bind (x : Reading α) (f : α → Reading β) (m : Mem) :
    (x >>= f).reads m = x.reads m ++ (f (x.value m)).reads m := rfl

@[simp] theorem value_fetch (off n : ℕ) (m : Mem) : (fetch off n).value m = slice m off n := rfl

@[simp] theorem reads_fetch (off n : ℕ) (m : Mem) : (fetch off n).reads m = List.range' off n := rfl

@[simp] theorem value_ite (p : Prop) [Decidable p] (x y : Reading α) (m : Mem) :
    (if p then x else y).value m = if p then x.value m else y.value m := by
  split_ifs <;> rfl

@[simp] theorem reads_ite (p : Prop) [Decidable p] (x y : Reading α) (m : Mem) :
    (if p then x else y).reads m = if p then x.reads m else y.reads m := by
  split_ifs <;> rfl

/-- **A loop over bytes** folds its step over them. -/
@[simp] theorem value_scan (f : β → UInt8 → β) (off n : ℕ) (acc : β) (m : Mem) :
    (scan f off n acc).value m = (slice m off n).foldl f acc := by
  induction n generalizing off acc with
  | zero => rfl
  | succ n ih =>
    show (scan f (off + 1) n (f acc (m off))).value m = _
    rw [ih, Nat.add_comm n 1, slice_add, List.foldl_append]
    rfl

@[simp] theorem reads_scan (f : β → UInt8 → β) (off n : ℕ) (acc : β) (m : Mem) :
    (scan f off n acc).reads m = List.range' off n := by
  induction n generalizing off acc with
  | zero => rfl
  | succ n ih =>
    show off :: (scan f (off + 1) n (f acc (m off))).reads m = _
    rw [ih, List.range'_succ]

end Reading

end IotcRa8p1.ByteMem
