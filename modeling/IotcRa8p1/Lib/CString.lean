import Mathlib.Data.List.TakeWhile

/-!
# C strings in fixed-size arrays

A `char` array is the list of its bytes; the string in it ends at the first NUL or at the end of the
array.  `strncpy` and `strncmp` are the library calls on such arrays.

A string is also the list of its characters.  `snprintf` leaves as much of the text as the array holds;
`snprintf_eq_self` says when that is all of it.
-/

namespace IotcRa8p1.CString

/-- The string held by an array: the bytes before the first NUL. -/
def cstr (bs : List UInt8) : List UInt8 := bs.takeWhile (· ≠ 0)

/-- An array without a NUL is all string. -/
theorem cstr_of_clean {bs : List UInt8} (h : ∀ c ∈ bs, c ≠ 0) : cstr bs = bs := by
  rw [cstr, List.takeWhile_eq_self_iff]
  exact fun c hc => decide_eq_true (h c hc)

/-- The bytes before the first NUL. -/
theorem cstr_append_nul {bs : List UInt8} (h : ∀ c ∈ bs, c ≠ 0) (rest : List UInt8) :
    cstr (bs ++ 0 :: rest) = bs := by
  have hall : ∀ c ∈ bs, decide (c ≠ 0) = true := fun c hc => decide_eq_true (h c hc)
  rw [cstr, List.takeWhile_append_of_pos hall, List.takeWhile_cons_of_neg (by decide), List.append_nil]

/-- `strncpy (dst, src, n)`: at most `n` bytes of the string, filled up with NUL to exactly `n`; the
rest of the array stays. -/
def strncpy (dst src : List UInt8) (n : ℕ) : List UInt8 :=
  (cstr src).take n ++ List.replicate (n - (cstr src).length) 0 ++ dst.drop n

/-- `0 == strncmp (a, b, n)`. -/
def strncmpEq (a b : List UInt8) (n : ℕ) : Bool := (cstr a).take n == (cstr b).take n

/-- The bytes of ASCII characters. -/
def ascii (cs : List Char) : List UInt8 := cs.map fun c => UInt8.ofNat c.toNat

/-- A string literal of ASCII characters. -/
def lit (s : String) : List UInt8 := ascii s.toList

@[simp] theorem lit_length (s : String) : (lit s).length = s.toList.length := by
  simp only [lit, ascii, List.length_map]

/-- `strstr (hay, needle)`: the rest of the string from the first place where `needle` stands. -/
def strstr : List UInt8 → List UInt8 → Option (List UInt8)
  | [], needle => if needle = [] then some [] else none
  | c :: hay, needle =>
    if needle.isPrefixOf (c :: hay) = true then some (c :: hay) else strstr hay needle

/-- What `strstr` finds is the end of the string. -/
theorem strstr_suffix {hay needle rest : List UInt8} (h : strstr hay needle = some rest) :
    rest <:+ hay := by
  induction hay with
  | nil =>
    rw [strstr] at h
    split_ifs at h
    exact Option.some.inj h ▸ List.suffix_rfl
  | cons c hay ih =>
    rw [strstr] at h
    split_ifs at h
    · exact Option.some.inj h ▸ List.suffix_rfl
    · exact (ih h).trans (List.suffix_cons c hay)

/-- The text before the place that `strstr` finds, and the rest. -/
theorem take_append_strstr {hay needle rest : List UInt8} (h : strstr hay needle = some rest) :
    hay.take (hay.length - rest.length) ++ rest = hay := by
  obtain ⟨before, rfl⟩ := strstr_suffix h
  rw [List.length_append, Nat.add_sub_cancel, List.take_left]

/-- A place where the needle stands is found. -/
theorem strstr_prefix (needle rest : List UInt8) : strstr (needle ++ rest) needle = some (needle ++ rest) := by
  cases hay : needle ++ rest with
  | nil =>
    rw [strstr, if_pos (List.append_eq_nil_iff.mp hay).1]
  | cons c tail =>
    have hprefix : needle.isPrefixOf (c :: tail) = true := by
      rw [← hay, List.isPrefixOf_iff_prefix]
      exact List.prefix_append needle rest
    rw [strstr, if_pos hprefix]

theorem strstr_cons_of_not_prefix {c : UInt8} {hay needle : List UInt8} (h : ¬ needle <+: c :: hay) :
    strstr (c :: hay) needle = strstr hay needle := by
  rw [strstr, if_neg fun hprefix => h (List.isPrefixOf_iff_prefix.mp hprefix)]

/-- Text without the first byte of the needle is skipped. -/
theorem strstr_skip {c : UInt8} {before : List UInt8} (h : c ∉ before) (hay needle : List UInt8) :
    strstr (before ++ hay) (c :: needle) = strstr hay (c :: needle) := by
  induction before with
  | nil => rfl
  | cons b before ih =>
    have hb : ¬ c :: needle <+: b :: (before ++ hay) := by
      rw [List.cons_prefix_cons]
      rintro ⟨rfl, -⟩
      exact h List.mem_cons_self
    rw [List.cons_append, strstr_cons_of_not_prefix hb, ih fun hc => h (List.mem_cons_of_mem _ hc)]

/-- A needle that ends in a byte which stands nowhere before is found at the first place of that byte. -/
theorem strstr_first {c : UInt8} {before needle : List UInt8} (hbefore : c ∉ before) (hneedle : c ∉ needle)
    (rest : List UInt8) :
    strstr (before ++ (needle ++ c :: rest)) (needle ++ [c]) = some (needle ++ c :: rest) := by
  induction before with
  | nil =>
    rw [List.nil_append, ← List.singleton_append, ← List.append_assoc]
    exact strstr_prefix (needle ++ [c]) rest
  | cons b before ih =>
    have hb : ¬ needle ++ [c] <+: b :: (before ++ (needle ++ c :: rest)) := by
      rintro ⟨tail, htail⟩
      -- the byte that ends the needle would stand before its first place
      have hget := congrArg (fun l => l[needle.length]?) htail
      have hlt : needle.length < (b :: before ++ needle).length := by
        rw [List.length_append, List.length_cons]
        omega
      have hleft : (needle ++ [c] ++ tail)[needle.length]? = some c := by simp
      rw [hleft, ← List.append_assoc, ← List.cons_append, ← List.cons_append,
        List.getElem?_append_left hlt] at hget
      have hmem : c ∈ b :: before ++ needle := List.mem_of_getElem? hget.symm
      exact (List.mem_append.mp hmem).elim hbefore hneedle
    rw [List.cons_append, strstr_cons_of_not_prefix hb, ih fun hc => hbefore (List.mem_cons_of_mem _ hc)]

/-- What `snprintf (buf, size, ...)` leaves in `buf` of the formatted text. -/
def snprintf (size : ℕ) (text : List UInt8) : List UInt8 := text.take (size - 1)

/-- Nothing is cut when the text and its NUL fit. -/
theorem snprintf_eq_self {size : ℕ} (hsize : 0 < size) (text : List UInt8) :
    snprintf size text = text ↔ text.length < size := by
  rw [snprintf]
  constructor
  · intro h
    have hlen := congrArg List.length h
    rw [List.length_take] at hlen
    omega
  · intro h
    exact List.take_of_length_le (by omega)

theorem snprintf_of_lt {size : ℕ} {text : List UInt8} (h : text.length < size) :
    snprintf size text = text := (snprintf_eq_self (Nat.zero_lt_of_lt h) text).mpr h

/-- `strchr (s, c)`: the rest of the string from the first `c` on. -/
def strchr (s : List UInt8) (c : UInt8) : Option (List UInt8) :=
  if c ∈ s then some (s.dropWhile (· ≠ c)) else none

theorem strncpy_length (dst src : List UInt8) (n : ℕ) (h : n ≤ dst.length) :
    (strncpy dst src n).length = dst.length := by
  simp only [strncpy, List.length_append, List.length_take, List.length_replicate,
    List.length_drop]
  omega

end IotcRa8p1.CString
