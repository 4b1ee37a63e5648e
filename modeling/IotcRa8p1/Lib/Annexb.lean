import Mathlib.Data.List.Infix

/-!
# Byte streams cut at start codes

`00 00 01` starts a unit, with a zero byte more before it or without one.  `parse` reads a stream from left to
right: the bytes before the first start code, then the units between the codes.  `join` writes units, each
behind a code of its own.  The two are inverse: `parse_join` on streams whose units show no start code, and
`join_parse` on every stream.
-/

namespace IotcRa8p1.Annexb

/-- A start code of four or of three bytes. -/
inductive Code where
  | four
  | three
  deriving DecidableEq, Repr

def Code.bytes : Code → List UInt8
  | .four => [0, 0, 0, 1]
  | .three => [0, 0, 1]

/-- The start code at the head of the stream; the long one is tried first. -/
def codeAt (bs : List UInt8) : Option Code :=
  if Code.four.bytes.isPrefixOf bs then some .four
  else if Code.three.bytes.isPrefixOf bs then some .three
  else none

theorem codeAt_starts {bs : List UInt8} {c : Code} (h : codeAt bs = some c) : c.bytes <+: bs := by
  rw [codeAt] at h
  split_ifs at h with h4 h3
  · obtain rfl := Option.some.inj h
    exact List.isPrefixOf_iff_prefix.mp h4
  · obtain rfl := Option.some.inj h
    exact List.isPrefixOf_iff_prefix.mp h3

theorem Code.bytes_pos (c : Code) : 0 < c.bytes.length := by
  cases c <;> exact Nat.succ_pos _

theorem codeAt_drop_lt {bs : List UInt8} {c : Code} (h : codeAt bs = some c) :
    bs.length - c.bytes.length < bs.length := by
  have hle := (codeAt_starts h).length_le
  have hpos := c.bytes_pos
  omega

/-- The bytes before the first start code, and the units behind the codes. -/
def parse (bs : List UInt8) : List UInt8 × List (List UInt8) :=
  match h : codeAt bs with
  | some c =>
    have := codeAt_drop_lt h
    let rest := parse (bs.drop c.bytes.length)
    ([], rest.1 :: rest.2)
  | none =>
    match bs with
    | [] => ([], [])
    | b :: bs =>
      let rest := parse bs
      (b :: rest.1, rest.2)
termination_by bs.length

@[simp] theorem parse_nil : parse [] = ([], []) := by
  rw [parse]
  rfl

theorem parse_code {bs : List UInt8} {c : Code} (h : codeAt bs = some c) :
    parse bs = ([], (parse (bs.drop c.bytes.length)).1 :: (parse (bs.drop c.bytes.length)).2) := by
  rw [parse]
  split
  · next c' h' =>
    obtain rfl : c = c' := Option.some.inj (h.symm.trans h')
    rfl
  · next h' => rw [h] at h'; exact absurd h' (Option.some_ne_none c)

theorem parse_cons {b : UInt8} {bs : List UInt8} (h : codeAt (b :: bs) = none) :
    parse (b :: bs) = (b :: (parse bs).1, (parse bs).2) := by
  rw [parse]
  split
  · next c' h' => rw [h] at h'; exact absurd h'.symm (Option.some_ne_none c')
  · rfl

/-! ### Writing a stream -/

/-- Units, each behind its start code. -/
def join : List (Code × List UInt8) → List UInt8
  | [] => []
  | (c, u) :: us => c.bytes ++ (u ++ join us)

/-- No start code stands in the bytes. -/
def NoCode (u : List UInt8) : Prop := ¬ Code.three.bytes <:+: u

instance (u : List UInt8) : Decidable (NoCode u) := inferInstanceAs (Decidable (¬ _))

/-- What follows the unit does not complete a start code with its last bytes. -/
def Parted (u : List UInt8) : List (Code × List UInt8) → Prop
  | (.three, _) :: _ => u.getLast? ≠ some 0
  | _ => True

/-- The units can be told apart in the stream. -/
def Separable : List (Code × List UInt8) → Prop
  | [] => True
  | (_, u) :: us => NoCode u ∧ Parted u us ∧ Separable us

instance (u : List UInt8) (us : List (Code × List UInt8)) : Decidable (Parted u us) :=
  match us with
  | [] => isTrue trivial
  | (.four, _) :: _ => isTrue trivial
  | (.three, _) :: _ => inferInstanceAs (Decidable (u.getLast? ≠ some 0))

def Separable.dec : (us : List (Code × List UInt8)) → Decidable (Separable us)
  | [] => isTrue trivial
  | (_, u) :: us =>
    have := Separable.dec us
    inferInstanceAs (Decidable (NoCode u ∧ Parted u us ∧ Separable us))

instance (us : List (Code × List UInt8)) : Decidable (Separable us) := Separable.dec us

theorem NoCode.tail {b : UInt8} {u : List UInt8} (h : NoCode (b :: u)) : NoCode u :=
  fun hi => h (hi.trans (List.suffix_cons b u).isInfix)

theorem noCode_nil : NoCode [] := fun h => absurd h.length_le (by decide)

theorem parted_nil (us : List (Code × List UInt8)) : Parted [] us := by
  rcases us with _ | ⟨⟨_ | _, v⟩, us⟩
  · trivial
  · trivial
  · exact Option.some_ne_none 0 ∘ Eq.symm

theorem Parted.tail {b : UInt8} {u : List UInt8} {us : List (Code × List UInt8)}
    (h : Parted (b :: u) us) : Parted u us := by
  rcases us with _ | ⟨⟨_ | _, v⟩, us⟩
  · trivial
  · trivial
  · rcases u with _ | ⟨x, u⟩
    · exact Option.some_ne_none 0 ∘ Eq.symm
    · exact h

theorem codeAt_eq_none {bs : List UInt8} :
    codeAt bs = none ↔ ¬ Code.four.bytes <+: bs ∧ ¬ Code.three.bytes <+: bs := by
  rw [codeAt, ← List.isPrefixOf_iff_prefix, ← List.isPrefixOf_iff_prefix]
  split_ifs with h4 h3 <;> simp [*]

theorem codeAt_code (c : Code) (bs : List UInt8) : codeAt (c.bytes ++ bs) = some c := by
  cases c <;> simp [codeAt, Code.bytes, List.isPrefixOf]

/-- The byte in front of a stream of units starts no code of its own. -/
theorem codeAt_join_none {b : UInt8} {u : List UInt8} {us : List (Code × List UInt8)}
    (hu : NoCode (b :: u)) (hp : Parted (b :: u) us) : codeAt (b :: (u ++ join us)) = none := by
  rw [codeAt_eq_none]
  have hhead : ¬ Code.three.bytes <+: b :: u := fun h => hu h.isInfix
  have htail : ¬ Code.three.bytes <+: u := fun h => hu.tail h.isInfix
  -- the code would end in the first three bytes of what follows, and only `00 00 01` has its one there
  rcases u with _ | ⟨x, _ | ⟨y, _ | ⟨z, u⟩⟩⟩ <;> rcases us with _ | ⟨⟨_ | _, v⟩, us⟩ <;>
    simp_all [Code.bytes, join, Parted, List.cons_prefix_cons]
  grind

theorem parse_join_from {u : List UInt8} {us : List (Code × List UInt8)} (hu : NoCode u)
    (hp : Parted u us) (hrest : parse (join us) = ([], us.map Prod.snd)) :
    parse (u ++ join us) = (u, us.map Prod.snd) := by
  induction u with
  | nil => exact hrest
  | cons b u ih =>
    rw [List.cons_append, parse_cons (codeAt_join_none hu hp), ih hu.tail hp.tail]

/-- What `join` writes, `parse` reads. -/
theorem parse_join {us : List (Code × List UInt8)} (h : Separable us) :
    parse (join us) = ([], us.map Prod.snd) := by
  induction us with
  | nil => exact parse_nil
  | cons cu us ih =>
    obtain ⟨c, u⟩ := cu
    obtain ⟨hu, hp, hus⟩ := h
    have hunit : parse (u ++ join us) = (u, us.map Prod.snd) := parse_join_from hu hp (ih hus)
    show parse (c.bytes ++ (u ++ join us)) = _
    rw [parse_code (codeAt_code c _), List.drop_left, hunit]
    rfl

/-! ### Every stream is one of units -/

theorem NoCode.cons {b : UInt8} {u rest : List UInt8} (h : codeAt (b :: (u ++ rest)) = none)
    (hu : NoCode u) : NoCode (b :: u) := by
  intro hi
  rcases List.infix_cons_iff.mp hi with hpre | hin
  · exact (codeAt_eq_none.mp h).2 (hpre.trans ⟨rest, rfl⟩)
  · exact hu hin

theorem Parted.cons {b : UInt8} {u : List UInt8} {us : List (Code × List UInt8)}
    (h : codeAt (b :: (u ++ join us)) = none) (hu : Parted u us) : Parted (b :: u) us := by
  rcases us with _ | ⟨⟨_ | _, v⟩, us⟩
  · trivial
  · trivial
  · rcases u with _ | ⟨x, u⟩
    · intro hb
      obtain rfl : b = 0 := Option.some.inj hb
      exact (codeAt_eq_none.mp h).1 ⟨v ++ join us, rfl⟩
    · exact hu

/-- The stream is the bytes before its first code, and its units joined with some codes. -/
theorem join_parse (bs : List UInt8) : ∃ us : List (Code × List UInt8),
    us.map Prod.snd = (parse bs).2 ∧ bs = (parse bs).1 ++ join us ∧
      Separable us ∧ NoCode (parse bs).1 ∧ Parted (parse bs).1 us := by
  induction hn : bs.length using Nat.strong_induction_on generalizing bs with
  | _ n ih =>
    cases hc : codeAt bs with
    | some c =>
      have hlt : (bs.drop c.bytes.length).length < n := by
        rw [List.length_drop, ← hn]
        exact codeAt_drop_lt hc
      obtain ⟨us, hus, hbs, hsep, hno, hpart⟩ := ih _ hlt _ rfl
      obtain ⟨rest, hrest⟩ := codeAt_starts hc
      have hdrop : bs.drop c.bytes.length = rest := by rw [← hrest, List.drop_left]
      rw [parse_code hc]
      refine ⟨(c, (parse (bs.drop c.bytes.length)).1) :: us, ?_, ?_, ⟨hno, hpart, hsep⟩,
        noCode_nil, parted_nil _⟩
      · rw [List.map_cons, hus]
      · show bs = [] ++ (c.bytes ++ ((parse (bs.drop c.bytes.length)).1 ++ join us))
        rw [← hbs, hdrop, hrest, List.nil_append]
    | none =>
      cases bs with
      | nil =>
        rw [parse_nil]
        exact ⟨[], rfl, rfl, trivial, noCode_nil, trivial⟩
      | cons b bs =>
        obtain ⟨us, hus, hbs, hsep, hno, hpart⟩ := ih bs.length (by rw [← hn]; exact Nat.lt_succ_self _) bs rfl
        rw [parse_cons hc]
        have hcode : codeAt (b :: ((parse bs).1 ++ join us)) = none := by rw [← hbs]; exact hc
        exact ⟨us, hus, congrArg (b :: ·) hbs, hsep, hno.cons hcode, hpart.cons hcode⟩

end IotcRa8p1.Annexb
