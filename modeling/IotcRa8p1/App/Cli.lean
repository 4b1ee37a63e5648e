import IotcRa8p1.Lib.CString
import Mathlib.Data.List.Infix

/-!
# The provisioning CLI (`iotc_cli.c`)

`prvReadLine` turns the characters of the console into lines, `prvReadPem` collects the lines of a pasted
PEM block.  The console is the list of characters that come in: a function that needs one more than
there are waits, which is `none` here.

A line is built up in `buf`, at most `size - 1` characters of it.  Without echo a line also ends when it
reads as a complete `-----END ...-----`, so the characters that follow belong to the next one.
-/

namespace IotcRa8p1.App.Cli

open CString

abbrev lf : UInt8 := 10

abbrev cr : UInt8 := 13

abbrev cliLineMax : ℕ := 128

abbrev iotcConfigPemMax : ℕ := 4096

/-- `-----BEGIN` -/
def pemBegin : List UInt8 := ascii ['-', '-', '-', '-', '-', 'B', 'E', 'G', 'I', 'N']

/-- `-----END` -/
def pemEnd : List UInt8 := ascii ['-', '-', '-', '-', '-', 'E', 'N', 'D']

def dashes : List UInt8 := ascii ['-', '-', '-', '-', '-']

def cancel : List UInt8 := ascii ['c', 'a', 'n', 'c', 'e', 'l']

/-- `0 == strncmp (line, s, strlen (s))` for a line without NUL. -/
def startsWith (line s : List UInt8) : Bool := s.isPrefixOf line

/-- `n >= 16`, and the line starts with `-----END` and ends with `-----`. -/
def endSeen (buf : List UInt8) : Bool :=
  16 ≤ buf.length && startsWith buf pemEnd && dashes.isSuffixOf buf

/-- A character that goes into a line. -/
def printable (c : UInt8) : Bool := 0x20 ≤ c && c < 0x7F

/-- What a reader leaves: its result, the CR latch and the characters it has not read. -/
structure ReadResult (α : Type) where
  result : α
  latch : Bool
  rest : List UInt8
  deriving DecidableEq

/-- The loop of `prv_read_line`: the line so far, `s_last_was_cr`, and the characters to come. -/
def readLineLoop (size : ℕ) (echo : Bool) :
    List UInt8 → Bool → List UInt8 → Option (ReadResult (List UInt8))
  | _, _, [] => none
  | buf, latch, c :: rest =>
    let latch' := c == cr
    -- drop the LF of a CR+LF
    if c = lf ∧ latch = true then readLineLoop size echo buf latch' rest
    else if c = cr ∨ c = lf then some ⟨buf, latch', rest⟩
    else if c = 0x08 ∨ c = 0x7F then readLineLoop size echo buf.dropLast latch' rest
    else if printable c = true ∧ buf.length < size - 1 then
      if echo = false ∧ endSeen (buf ++ [c]) = true then some ⟨buf ++ [c], latch', rest⟩
      else readLineLoop size echo (buf ++ [c]) latch' rest
    else readLineLoop size echo buf latch' rest

/-- `prv_read_line` -/
def prvReadLine (size : ℕ) (echo latch : Bool) (input : List UInt8) :
    Option (ReadResult (List UInt8)) :=
  readLineLoop size echo [] latch input

/-- What a line is: at most `size - 1` printable characters. -/
structure IsLine (size : ℕ) (line : List UInt8) : Prop where
  short : line.length ≤ size - 1
  printable : ∀ c ∈ line, printable c = true

theorem IsLine.snoc {size : ℕ} {line : List UInt8} (h : IsLine size line) {c : UInt8}
    (hc : Cli.printable c = true) (hlen : line.length < size - 1) : IsLine size (line ++ [c]) := by
  constructor
  · rw [List.length_append, List.length_singleton]
    omega
  · intro x hx
    rcases List.mem_append.mp hx with hx | hx
    · exact h.printable x hx
    · rwa [List.mem_singleton.mp hx]

theorem IsLine.dropLast {size : ℕ} {line : List UInt8} (h : IsLine size line) :
    IsLine size line.dropLast := by
  constructor
  · rw [List.length_dropLast]
    exact (Nat.sub_le _ _).trans h.short
  · exact fun c hc => h.printable c (List.mem_of_mem_dropLast hc)

theorem IsLine.clean {size : ℕ} {line : List UInt8} (h : IsLine size line) : ∀ c ∈ line, c ≠ 0 := by
  intro c hc hzero
  have hprint := h.printable c hc
  rw [hzero] at hprint
  exact absurd hprint (by decide)

/-- The loop keeps a line. -/
theorem readLineLoop_isLine {size : ℕ} {echo latch : Bool} {buf input : List UInt8}
    {r : ReadResult (List UInt8)} (hbuf : IsLine size buf)
    (h : readLineLoop size echo buf latch input = some r) : IsLine size r.result := by
  induction input generalizing buf latch with
  | nil => contradiction
  | cons c rest ih =>
    rw [readLineLoop] at h
    split_ifs at h with h1 h2 h3 h4 h5
    · exact ih hbuf h
    · rw [← Option.some.inj h]
      exact hbuf
    · exact ih hbuf.dropLast h
    · rw [← Option.some.inj h]
      exact hbuf.snoc h4.1 h4.2
    · exact ih (hbuf.snoc h4.1 h4.2) h
    · exact ih hbuf h

/-- How `prv_read_pem` ends: -1 with one of its three messages, or the number of bytes in `s_pem`. -/
inductive PemResult where
  | cancelled
  | wrongType
  | tooLarge
  | captured (pem : List UInt8)
  deriving DecidableEq

def PemResult.isError : PemResult → Bool
  | .captured _ => false
  | _ => true

/-- The locals of `prv_read_pem`, and the `used` bytes of `s_pem`. -/
structure PemState where
  pem : List UInt8
  seenInput : Bool
  tooLarge : Bool
  wrongType : Bool
  deriving DecidableEq

def PemState.start : PemState := ⟨[], false, false, false⟩

/-- The second half of the loop body: a line of a block (or of one of the wrong type). -/
def pemStore (s : PemState) (line : List UInt8) : PemResult ⊕ PemState :=
  if s.wrongType = true then
    if startsWith line pemEnd = true then .inl .wrongType else .inr s
  else if s.tooLarge = true ∨ iotcConfigPemMax ≤ s.pem.length + line.length + 2 then
    let s := { s with tooLarge := true }
    if startsWith line pemEnd = true then .inl .tooLarge else .inr s
  else
    let s := { s with pem := s.pem ++ line ++ [lf] }
    if startsWith line pemEnd = true then .inl (.captured s.pem) else .inr s

/-- The loop body of `prv_read_pem` on one line. -/
def pemLine (label : List UInt8) (s : PemState) (line : List UInt8) : PemResult ⊕ PemState :=
  if line = [] then
    -- tolerate blank lines inside a paste
    if s.seenInput = false then .inl .cancelled else .inr s
  else
    let s := { s with seenInput := true }
    if s.pem = [] ∧ line = cancel then .inl .cancelled
    else if startsWith line pemBegin = true then
      pemStore { s with pem := [], tooLarge := false, wrongType := (strstr line label).isNone } line
    else if s.pem = [] ∧ s.wrongType = false then .inr s
    else pemStore s line

/-- The loop of `prv_read_pem`, with fuel for one more line each. -/
def readPemLoop (label : List UInt8) :
    ℕ → PemState → Bool → List UInt8 → Option (ReadResult PemResult)
  | 0, _, _, _ => none
  | fuel + 1, s, latch, input =>
    match prvReadLine 96 false latch input with
    | none => none
    | some r =>
      match pemLine label s r.result with
      | .inl res => some ⟨res, r.latch, r.rest⟩
      | .inr s => readPemLoop label fuel s r.latch r.rest

/-- `prv_read_pem`; a line takes at least one character. -/
def prvReadPem (label : List UInt8) (latch : Bool) (input : List UInt8) :
    Option (ReadResult PemResult) :=
  readPemLoop label (input.length + 1) .start latch input

end IotcRa8p1.App.Cli
