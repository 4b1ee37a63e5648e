import Mathlib.Data.List.TakeWhile
import Mathlib.Data.Nat.Notation

/-!
# `application/x-www-form-urlencoded`

A body is a list of fields between ampersands, each a name and a value around its first equals sign.  Name and
value are decoded: a plus is a space, and a percent sign with two hexadecimal digits is a byte.

`literal` strings are those that decode to themselves, and `decode_escape` says that an encoder may escape any
bytes but those which the decoding gives a meaning.  `parse_open` takes the first field off a body whose
rest is not known.
-/

namespace IotcRa8p1.Urlencoded

/-- `'&'` -/
abbrev ampersand : UInt8 := 38

/-- `'='` -/
abbrev equals : UInt8 := 61

/-- `'%'` -/
abbrev percent : UInt8 := 37

/-- `'+'` -/
abbrev plus : UInt8 := 43

/-! ### Decoding -/

def hexValue (c : UInt8) : Option UInt8 :=
  if 48 ≤ c ∧ c ≤ 57 then some (c - 48)
  else if 65 ≤ c ∧ c ≤ 70 then some (c - 55)
  else if 97 ≤ c ∧ c ≤ 102 then some (c - 87)
  else none

/-- The byte of two hexadecimal digits. -/
def hexByte (a b : UInt8) : Option UInt8 :=
  match hexValue a, hexValue b with
  | some x, some y => some (16 * x + y)
  | _, _ => none

/-- The byte of the two digits at the front, and the rest. -/
def hexPair : List UInt8 → Option (UInt8 × List UInt8)
  | a :: b :: rest => (hexByte a b).map fun v => (v, rest)
  | _ => none

def percentDecode : List UInt8 → List UInt8
  | [] => []
  | [c] => [c]
  | [c, d] => [c, d]
  | c :: a :: b :: rest =>
    if c = percent then
      match hexByte a b with
      | some v => v :: percentDecode rest
      | none => c :: percentDecode (a :: b :: rest)
    else c :: percentDecode (a :: b :: rest)

def unplus (c : UInt8) : UInt8 := if c = plus then 32 else c

def decode (s : List UInt8) : List UInt8 := percentDecode (s.map unplus)

@[simp] theorem decode_nil : decode [] = [] := rfl

theorem percentDecode_cons (c : UInt8) (s : List UInt8) :
    percentDecode (c :: s) =
      if c = percent then
        match hexPair s with
        | some (v, rest) => v :: percentDecode rest
        | none => c :: percentDecode s
      else c :: percentDecode s := by
  match s with
  | [] => simp [percentDecode, hexPair]
  | [a] => simp [percentDecode, hexPair]
  | a :: b :: rest =>
    rw [percentDecode, hexPair]
    cases hexByte a b with
    | none => rfl
    | some v => rfl

/-- A plus is no hexadecimal digit, before and after. -/
theorem hexValue_unplus (c : UInt8) : hexValue (unplus c) = hexValue c := by
  by_cases hc : c = plus
  · subst hc
    decide
  · rw [unplus, if_neg hc]

theorem hexByte_of_hexValue {a b : UInt8} (h : hexValue a = none ∨ hexValue b = none) :
    hexByte a b = none := by
  rw [hexByte]
  rcases h with h | h
  · rw [h]
  · rw [h]
    cases hexValue a with
    | none => rfl
    | some x => rfl

theorem hexPair_unplus (s : List UInt8) :
    hexPair (s.map unplus) = (hexPair s).map fun p => (p.1, p.2.map unplus) := by
  match s with
  | [] => rfl
  | [a] => rfl
  | a :: b :: rest =>
    simp only [List.map_cons, hexPair, hexByte, hexValue_unplus, Option.map_map]
    rfl

/-- **The first character** of a string, decoded. -/
theorem decode_cons (c : UInt8) (s : List UInt8) :
    decode (c :: s) =
      if c = percent then
        match hexPair s with
        | some (v, rest) => v :: decode rest
        | none => c :: decode s
      else unplus c :: decode s := by
  rw [decode, List.map_cons, percentDecode_cons, hexPair_unplus]
  by_cases hc : c = percent
  · subst hc
    have hun : unplus percent = percent := by decide
    rw [hun, if_pos rfl, if_pos rfl]
    cases hexPair s with
    | none => rfl
    | some p => rfl
  · have hne : unplus c ≠ percent := by
      rw [unplus]
      split_ifs
      · decide
      · exact hc
    rw [if_neg hne, if_neg hc]
    rfl

theorem hexPair_length {s rest : List UInt8} {v : UInt8} (h : hexPair s = some (v, rest)) :
    rest.length + 2 = s.length := by
  match s with
  | [] => contradiction
  | [a] => contradiction
  | a :: b :: t =>
    obtain ⟨w, -, hw⟩ := Option.map_eq_some_iff.mp h
    rw [← (Prod.mk.inj hw).2]
    rfl

theorem decode_length_le (s : List UInt8) : (decode s).length ≤ s.length := by
  induction hn : s.length using Nat.strong_induction_on generalizing s with
  | _ n ih =>
    cases s with
    | nil => exact Nat.zero_le _
    | cons c s =>
      rw [List.length_cons] at hn
      have hs := ih s.length (by omega) s rfl
      rw [decode_cons]
      split_ifs with hc
      · cases hp : hexPair s with
        | none =>
          dsimp only
          rw [List.length_cons]
          omega
        | some p =>
          have hlen := hexPair_length hp
          have hrest := ih p.2.length (by omega) p.2 rfl
          dsimp only
          rw [List.length_cons]
          omega
      · rw [List.length_cons]
        omega

/-! ### Strings that decode to themselves -/

/-- No plus, and no percent sign with two hexadecimal digits. -/
def literal : List UInt8 → Bool
  | [] => true
  | c :: s => c ≠ plus && !(c = percent && (hexPair s).isSome) && literal s

theorem decode_of_literal {s : List UInt8} (h : literal s = true) : decode s = s := by
  induction s with
  | nil => rfl
  | cons c s ih =>
    simp only [literal, Bool.and_eq_true, Bool.not_eq_true', decide_eq_true_eq] at h
    obtain ⟨⟨hplus, hpair⟩, hrest⟩ := h
    rw [decode_cons, ih hrest]
    split_ifs with hc
    · have hnone : hexPair s = none := by simpa [hc] using hpair
      rw [hnone]
    · rw [unplus, if_neg hplus]

theorem literal_of_decode {s : List UInt8} (h : decode s = s) : literal s = true := by
  induction s with
  | nil => rfl
  | cons c s ih =>
    rw [decode_cons] at h
    by_cases hc : c = percent
    · subst hc
      rw [if_pos rfl] at h
      cases hp : hexPair s with
      | none =>
        rw [hp] at h
        simp only [literal, hp, ih (List.cons.inj h).2]
        decide
      | some p =>
        -- an escape makes the string shorter
        rw [hp] at h
        have hlen := congrArg List.length h
        have hpair := hexPair_length hp
        have hrest := decode_length_le p.2
        simp only [List.length_cons] at hlen
        omega
    · rw [if_neg hc] at h
      have hplus : c ≠ plus := by
        rintro rfl
        exact absurd (List.cons.inj h).1 (by decide)
      simp [literal, hplus, hc, ih (List.cons.inj h).2]

/-- What decodes to a string is at least as long, and is the string when it is no longer. -/
theorem eq_of_decode_take {s t : List UInt8} (ht : t <+: s) (h : decode t = s) :
    t = s ∧ literal s = true := by
  have hlen := decode_length_le t
  rw [h] at hlen
  have hts : t = s := ht.eq_of_length_le hlen
  subst hts
  exact ⟨rfl, literal_of_decode h⟩

/-! ### Escaping -/

/-- The two digits of the bytes that an encoder escapes. -/
abbrev Escapes := UInt8 → Option (UInt8 × UInt8)

def escapeByte (enc : Escapes) (c : UInt8) : List UInt8 :=
  match enc c with
  | some (a, b) => [percent, a, b]
  | none => [c]

def escape (enc : Escapes) (s : List UInt8) : List UInt8 := s.flatMap (escapeByte enc)

/-- The digits are those of the byte, and the byte means nothing to the decoder. -/
def Escapes.Sound (enc : Escapes) : Prop :=
  ∀ c a b, enc c = some (a, b) →
    hexByte a b = some c ∧ hexValue c = none ∧ c ≠ percent ∧ c ≠ plus

variable {enc : Escapes}

theorem escape_cons (c : UInt8) (s : List UInt8) :
    escape enc (c :: s) = escapeByte enc c ++ escape enc s := List.flatMap_cons

theorem hexPair_escape (henc : enc.Sound) (s : List UInt8) :
    hexPair (escape enc s) = (hexPair s).map fun p => (p.1, escape enc p.2) := by
  -- an escaped byte is no digit, nor is the percent sign in its place
  have hpercent : hexValue percent = none := by decide
  match s with
  | [] => rfl
  | x :: t =>
    rw [escape_cons, escapeByte]
    cases hx : enc x with
    | some p =>
      obtain ⟨-, hnone, -⟩ := henc x p.1 p.2 hx
      have hleft : hexPair (percent :: p.1 :: p.2 :: escape enc t) = none := by
        rw [hexPair, hexByte_of_hexValue (Or.inl hpercent)]
        rfl
      have hright : hexPair (x :: t) = none := by
        cases t with
        | nil => rfl
        | cons y t =>
          rw [hexPair, hexByte_of_hexValue (Or.inl hnone)]
          rfl
      rw [hright]
      exact hleft
    | none =>
      match t with
      | [] => rfl
      | y :: t =>
        rw [escape_cons, escapeByte]
        cases hy : enc y with
        | some p =>
          obtain ⟨-, hnone, -⟩ := henc y p.1 p.2 hy
          have hleft : hexPair (x :: percent :: p.1 :: p.2 :: escape enc t) = none := by
            rw [hexPair, hexByte_of_hexValue (Or.inr hpercent)]
            rfl
          have hright : hexPair (x :: y :: t) = none := by
            rw [hexPair, hexByte_of_hexValue (Or.inr hnone)]
            rfl
          rw [hright]
          exact hleft
        | none =>
          show (hexByte x y).map (fun v => (v, escape enc t)) =
            ((hexByte x y).map fun v => (v, t)).map fun p => (p.1, escape enc p.2)
          rw [Option.map_map]
          rfl

/-- **Escaping** such bytes does not change what a string decodes to. -/
theorem decode_escape (henc : enc.Sound) (s : List UInt8) : decode (escape enc s) = decode s := by
  induction hn : s.length using Nat.strong_induction_on generalizing s with
  | _ n ih =>
    cases s with
    | nil => rfl
    | cons c s =>
      rw [List.length_cons] at hn
      have hs := ih s.length (by omega) s rfl
      rw [escape_cons, escapeByte, decode_cons c s]
      cases hc : enc c with
      | some p =>
        obtain ⟨hbyte, -, hnp, hnplus⟩ := henc c p.1 p.2 hc
        rw [if_neg hnp, unplus, if_neg hnplus, ← hs]
        show decode (percent :: p.1 :: p.2 :: escape enc s) = _
        rw [decode_cons, if_pos rfl, hexPair, hbyte]
        rfl
      | none =>
        show decode (c :: escape enc s) = _
        rw [decode_cons, hexPair_escape henc]
        split_ifs with hp
        · cases hpair : hexPair s with
          | none => exact congrArg (c :: ·) hs
          | some p =>
            have hlen := hexPair_length hpair
            exact congrArg (p.1 :: ·) (ih p.2.length (by omega) p.2 rfl)
        · exact congrArg (unplus c :: ·) hs

/-- An ampersand that is not escaped stands where it stood. -/
theorem takeWhile_escape (henc : enc.Sound) (hamp : enc ampersand = none) (s : List UInt8) :
    (escape enc s).takeWhile (· ≠ ampersand) = escape enc (s.takeWhile (· ≠ ampersand)) := by
  induction s with
  | nil => rfl
  | cons c s ih =>
    by_cases hc : c = ampersand
    · subst hc
      rw [escape_cons, escapeByte, hamp, List.takeWhile_cons_of_neg (by simp)]
      rfl
    · rw [escape_cons, List.takeWhile_cons_of_pos (by simpa using hc), escape_cons, ← ih]
      apply List.takeWhile_append_of_pos
      intro b hb
      -- neither the percent sign nor a digit is an ampersand
      have hne : b ≠ ampersand := by
        rw [escapeByte] at hb
        cases he : enc c with
        | none =>
          rw [he] at hb
          exact List.mem_singleton.mp hb ▸ hc
        | some p =>
          rw [he] at hb
          obtain ⟨hbyte, -⟩ := henc c p.1 p.2 he
          rintro rfl
          have hnone : hexValue ampersand = none := by decide
          rcases List.mem_cons.mp hb with h | hb
          · exact absurd h (by decide)
          · rcases List.mem_cons.mp hb with h | hb
            · rw [hexByte_of_hexValue (Or.inl (h ▸ hnone))] at hbyte
              contradiction
            · rw [hexByte_of_hexValue (Or.inr (List.mem_singleton.mp hb ▸ hnone))] at hbyte
              contradiction
      simpa using hne

/-! ### Fields -/

/-- Name and value of a field. -/
def pair (field : List UInt8) : List UInt8 × List UInt8 :=
  (decode (field.takeWhile (· ≠ equals)), decode ((field.dropWhile (· ≠ equals)).drop 1))

/-- The fields of a body; empty ones are skipped. -/
def parse (body : List UInt8) : List (List UInt8 × List UInt8) :=
  ((body.splitOn ampersand).filter (· ≠ [])).map pair

/-- The values under a name. -/
def values (name body : List UInt8) : List (List UInt8) :=
  ((parse body).filter fun field => field.1 = name).map Prod.snd

@[simp] theorem parse_nil : parse [] = [] := by decide

theorem pair_field {name : List UInt8} (h : equals ∉ name) (value : List UInt8) :
    pair (name ++ equals :: value) = (decode name, decode value) := by
  have hname : ∀ c ∈ name, decide (c ≠ equals) = true := fun c hc => by
    simpa using ne_of_mem_of_not_mem hc h
  rw [pair, List.takeWhile_append_of_pos hname, List.dropWhile_append_of_pos hname,
    List.takeWhile_cons_of_neg (by simp), List.dropWhile_cons_of_neg (by simp), List.append_nil,
    List.drop_one, List.tail_cons]

theorem parse_cons {field : List UInt8} (h : ampersand ∉ field) (hne : field ≠ [])
    (rest : List UInt8) : parse (field ++ ampersand :: rest) = pair field :: parse rest := by
  rw [parse, List.splitOn_append_cons_self_of_not_mem h, List.filter_cons_of_pos (by simpa using hne),
    List.map_cons]
  rfl

theorem parse_single {field : List UInt8} (h : ampersand ∉ field) (hne : field ≠ []) :
    parse field = [pair field] := by
  rw [parse, List.splitOn_eq_singleton h, List.filter_cons_of_pos (by simpa using hne)]
  rfl

/-- A field ends at its first ampersand, whatever comes behind. -/
theorem takeWhile_append_ampersand (e rest : List UInt8) :
    (e ++ ampersand :: rest).takeWhile (· ≠ ampersand) = e.takeWhile (· ≠ ampersand) := by
  induction e with
  | nil => rw [List.nil_append, List.takeWhile_cons_of_neg (by simp), List.takeWhile_nil]
  | cons c e ih =>
    rw [List.cons_append, List.takeWhile_cons, List.takeWhile_cons, ih]

/-- No ampersand, and the field is the whole string. -/
theorem takeWhile_ampersand {e : List UInt8} (h : ampersand ∉ e) :
    e.takeWhile (· ≠ ampersand) = e := by
  rw [List.takeWhile_eq_self_iff]
  exact fun c hc => by simpa using ne_of_mem_of_not_mem hc h

/-- **The first field** of a body that starts with the characters of one. -/
theorem parse_open {start : List UInt8} (h : ampersand ∉ start) (hne : start ≠ [])
    (rest : List UInt8) :
    parse (start ++ rest) = pair (start ++ rest.takeWhile (· ≠ ampersand)) ::
      parse ((rest.dropWhile (· ≠ ampersand)).drop 1) := by
  have htake : ampersand ∉ start ++ rest.takeWhile (· ≠ ampersand) := by
    rw [List.mem_append]
    rintro (hs | ht)
    · exact h hs
    · exact absurd (List.mem_takeWhile_imp ht) (by simp)
  have hsplit := List.takeWhile_append_dropWhile (p := (· ≠ ampersand)) (l := rest)
  cases hd : rest.dropWhile (· ≠ ampersand) with
  | nil =>
    rw [hd, List.append_nil] at hsplit
    rw [hsplit] at htake ⊢
    rw [parse_single htake (by simp [hne])]
    rfl
  | cons c tail =>
    have hc : c = ampersand := by
      have hsome : rest.dropWhile (· ≠ ampersand) ≠ [] := by
        rw [hd]
        simp
      have hhead := List.head_dropWhile_not (· ≠ ampersand) hsome
      simp only [hd, List.head_cons] at hhead
      simpa using hhead
    subst hc
    rw [hd] at hsplit
    have hbody : start ++ rest =
        (start ++ rest.takeWhile (· ≠ ampersand)) ++ ampersand :: tail := by
      rw [List.append_assoc, hsplit]
    rw [hbody, parse_cons htake (by simp [hne])]
    rfl

/-- The value of the first field comes first, if the name is its name. -/
theorem values_of_parse {body rest value : List UInt8} {name field : List UInt8}
    (h : parse body = (field, value) :: parse rest) :
    values name body =
      if field = name then value :: values name rest else values name rest := by
  rw [values, h, List.filter_cons]
  split_ifs with h1 h2 h2
  · rfl
  · exact absurd (by simpa using h1) h2
  · exact absurd (by simpa using h2) h1
  · rfl

end IotcRa8p1.Urlencoded
