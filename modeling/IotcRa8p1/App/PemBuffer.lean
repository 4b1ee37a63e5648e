import IotcRa8p1.App.PemBlock
import IotcRa8p1.App.Provisioning
import IotcRa8p1.Lib.Buffer

/-!
# The capture in memory (`iotc_cli.c`)

`prv_read_line` and `prv_read_pem` as they work on `line`, `s_pem` and their indices, one character of the
console at a time.  `capture_simulates` says that they do what the functions on lists do, whatever the arrays
hold before, and that no write leaves an array.

`pem_capture_sound` is the law for `set cert` and `set key`: what is captured, and what has been read when a
block is refused.
-/

namespace IotcRa8p1.App.Cli

open ByteMem CString

/-! ### `prv_read_line` -/

/-- `buf` and `n`; `returned` when the line is complete. -/
structure LineStep where
  returned : Bool
  buf : Buffer
  n : ℕ

/-- One turn of the loop of `prv_read_line`, when `s_last_was_cr` is `latch` before. -/
def prvReadLineChar (echo : Bool) (buf : Buffer) (n : ℕ) (latch : Bool) (c : UInt8) : LineStep :=
  if c = lf ∧ latch = true then ⟨false, buf, n⟩
  else if c = cr ∨ c = lf then ⟨true, buf.write n [0], n⟩
  else if c = 0x08 ∨ c = 0x7F then ⟨false, buf, n - 1⟩
  else if 0x20 ≤ c ∧ c < 0x7F ∧ n < buf.size - 1 then
    let buf := buf.write n [c]
    let n := n + 1
    if echo = false ∧ 16 ≤ n ∧ strncmpEq (slice buf.bytes 0 8) pemEnd 8 = true ∧
        strncmpEq (slice buf.bytes (n - 5) 5) dashes 5 = true then
      ⟨true, buf.write n [0], n⟩
    else ⟨false, buf, n⟩
  else ⟨false, buf, n⟩

/-- The array holds the line begun. -/
structure Holds (buf : Buffer) (n : ℕ) (line : List UInt8) : Prop where
  inside : buf.overrun = false
  isLine : IsLine buf.size line
  text : slice buf.bytes 0 n = line

theorem Holds.length {buf : Buffer} {n : ℕ} {line : List UInt8} (h : Holds buf n line) :
    line.length = n := by
  rw [← h.text, slice_length]

/-- `strncmp` with a literal on characters that are not NUL. -/
theorem strncmpEq_iff {a s : List UInt8} {k : ℕ} (hk : s.length = k) (ha : ∀ c ∈ a, c ≠ 0)
    (hs : ∀ c ∈ s, c ≠ 0) : strncmpEq a s k = true ↔ s <+: a := by
  rw [strncmpEq, cstr_of_clean ha, cstr_of_clean hs, beq_iff_eq, List.take_of_length_le hk.le,
    List.prefix_iff_eq_take, hk, eq_comm]

/-- The test for a complete END line, in memory and on the list. -/
theorem endSeen_memory {buf : Buffer} {n : ℕ} {line : List UInt8} (h : Holds buf n line) :
    (16 ≤ n ∧ strncmpEq (slice buf.bytes 0 8) pemEnd 8 = true ∧
      strncmpEq (slice buf.bytes (n - 5) 5) dashes 5 = true) ↔ endSeen line = true := by
  have hlen := h.length
  have hline := h.isLine.clean
  simp only [endSeen, Bool.and_eq_true, decide_eq_true_eq, hlen, and_assoc]
  refine and_congr_right fun h16 => ?_
  have hfirst : slice buf.bytes 0 8 = line.take 8 := by
    have hsplit := slice_add buf.bytes 0 8 (n - 8)
    rw [show 8 + (n - 8) = n by omega, h.text] at hsplit
    rw [hsplit, List.take_left' (by simp)]
  have hlast : slice buf.bytes (n - 5) 5 = line.drop (n - 5) := by
    have hsplit := slice_add buf.bytes 0 (n - 5) 5
    rw [show n - 5 + 5 = n by omega, h.text, Nat.zero_add] at hsplit
    rw [hsplit, List.drop_left' (by simp)]
  rw [hfirst, hlast, strncmpEq_iff (by decide) (fun c hc => hline c (List.mem_of_mem_take hc))
      (by decide +kernel),
    strncmpEq_iff (by decide) (fun c hc => hline c (List.mem_of_mem_drop hc)) (by decide +kernel), startsWith,
    List.isPrefixOf_iff_prefix, List.isSuffixOf_iff_suffix, List.prefix_take_iff]
  have hdash : dashes <+: line.drop (n - 5) ↔ dashes <:+ line := by
    rw [List.suffix_iff_eq_drop, hlen, show dashes.length = 5 from rfl]
    constructor
    · intro hpre
      exact hpre.eq_of_length (by rw [List.length_drop, hlen, show dashes.length = 5 from rfl]; omega)
    · exact fun heq => ⟨[], by rw [List.append_nil, ← heq]⟩
  rw [hdash, and_iff_left (show pemEnd.length ≤ 8 by decide)]

theorem Holds.nul {buf : Buffer} {n : ℕ} {line : List UInt8} (h : Holds buf n line)
    (hsize : 0 < buf.size) : Holds (buf.write n [0]) n line := by
  have hshort := h.isLine.short
  rw [h.length] at hshort
  constructor
  · rw [buf.write_overrun (by rw [List.length_singleton]; omega), h.inside]
  · exact h.isLine
  · rw [buf.write_before [0] (Nat.le_refl n), h.text]

theorem Holds.push {buf : Buffer} {n : ℕ} {line : List UInt8} (h : Holds buf n line) {c : UInt8}
    (hc : Cli.printable c = true) (hn : n < buf.size - 1) :
    Holds (buf.write n [c]) (n + 1) (line ++ [c]) := by
  constructor
  · rw [buf.write_overrun (by rw [List.length_singleton]; omega), h.inside]
  · exact h.isLine.snoc hc (by rwa [h.length])
  · have happ := buf.write_append n [c]
    rwa [List.length_singleton, h.text] at happ

theorem Holds.pop {buf : Buffer} {n : ℕ} {line : List UInt8} (h : Holds buf n line) :
    Holds buf (n - 1) line.dropLast := by
  refine ⟨h.inside, h.isLine.dropLast, ?_⟩
  cases n with
  | zero =>
    have hnil := List.eq_nil_of_length_eq_zero h.length
    rw [hnil]
    rfl
  | succ n =>
    have hsplit := slice_add buf.bytes 0 n 1
    rw [h.text] at hsplit
    rw [hsplit, List.dropLast_append_of_ne_nil (by simp [slice])]
    simp [slice]

/-- **One character** does to the array what it does to the line. -/
theorem lineChar_spec {buf : Buffer} {n : ℕ} {line : List UInt8} (h : Holds buf n line)
    (hsize : 0 < buf.size) (echo latch : Bool) (c : UInt8) (rest : List UInt8) :
    let r := prvReadLineChar echo buf n latch c
    r.buf.size = buf.size ∧ ∃ line', Holds r.buf r.n line' ∧
      if r.returned = true then r.buf.bytes r.n = 0 ∧
        readLineLoop buf.size echo line latch (c :: rest) = some ⟨line', c == cr, rest⟩
      else readLineLoop buf.size echo line latch (c :: rest) =
        readLineLoop buf.size echo line' (c == cr) rest := by
  have hprint : Cli.printable c = true ↔ 0x20 ≤ c ∧ c < 0x7F := by
    simp [Cli.printable]
  dsimp only
  rw [prvReadLineChar, readLineLoop]
  by_cases hdrop : c = lf ∧ latch = true
  · rw [if_pos hdrop, if_pos hdrop]
    exact ⟨rfl, line, h, rfl⟩
  rw [if_neg hdrop, if_neg hdrop]
  by_cases hnewline : c = cr ∨ c = lf
  · rw [if_pos hnewline, if_pos hnewline]
    exact ⟨rfl, line, h.nul hsize, buf.write_at n 0, rfl⟩
  rw [if_neg hnewline, if_neg hnewline]
  by_cases hback : c = 0x08 ∨ c = 0x7F
  · rw [if_pos hback, if_pos hback]
    exact ⟨rfl, line.dropLast, h.pop, rfl⟩
  rw [if_neg hback, if_neg hback]
  have hchar : Cli.printable c = true ∧ line.length < buf.size - 1 ↔
      0x20 ≤ c ∧ c < 0x7F ∧ n < buf.size - 1 := by
    rw [hprint, h.length, and_assoc]
  by_cases hroom : 0x20 ≤ c ∧ c < 0x7F ∧ n < buf.size - 1
  · have hpush := h.push (hprint.mpr ⟨hroom.1, hroom.2.1⟩) hroom.2.2
    rw [if_pos hroom, if_pos (hchar.mpr hroom)]
    dsimp only
    by_cases hend : echo = false ∧ endSeen (line ++ [c]) = true
    · rw [if_pos (hend.imp_right (endSeen_memory hpush).mpr), if_pos hend]
      exact ⟨rfl, line ++ [c], hpush.nul hsize, Buffer.write_at _ _ _, rfl⟩
    · rw [if_neg fun hm => hend (hm.imp_right (endSeen_memory hpush).mp), if_neg hend]
      exact ⟨rfl, line ++ [c], hpush, rfl⟩
  · rw [if_neg hroom, if_neg fun hm => hroom (hchar.mp hm)]
    exact ⟨rfl, line, h, rfl⟩

/-! ### `prv_read_pem` -/

/-- How `prv_read_pem` returns: -1 with one of three messages, or `used`. -/
inductive PemReturn where
  | cancelled
  | wrongType
  | tooLarge
  | captured (used : ℕ)
  deriving DecidableEq

/-- `s_pem`, the locals of `prv_read_pem`, those of the `prv_read_line` it is in, and `s_last_was_cr`. -/
structure Capture where
  pem : Buffer
  used : ℕ
  line : Buffer
  n : ℕ
  latch : Bool
  seenInput : Bool
  tooLarge : Bool
  wrongType : Bool

/-- `prv_read_pem` before the first character, whatever the arrays hold. -/
def Capture.start (pem line : Mem) (latch : Bool) : Capture where
  pem := (Buffer.fresh iotcConfigPemMax pem).write 0 [0]
  used := 0
  line := .fresh 96 line
  n := 0
  latch := latch
  seenInput := false
  tooLarge := false
  wrongType := false

/-- The string in an array. -/
def stringIn (buf : Buffer) : List UInt8 := cstr (slice buf.bytes 0 buf.size)

/-- The second half of the loop body. -/
def storeLine (s : Capture) : Option PemReturn × Capture :=
  if s.wrongType = true then
    if strncmpEq (stringIn s.line) pemEnd 8 = true then (some .wrongType, s) else (none, s)
  else if s.tooLarge = true ∨ s.pem.size ≤ s.used + s.n + 2 then
    let s := { s with tooLarge := true }
    if strncmpEq (stringIn s.line) pemEnd 8 = true then (some .tooLarge, s) else (none, s)
  else
    let pem := s.pem.write s.used (slice s.line.bytes 0 s.n)
    let used := s.used + s.n
    let pem := pem.write used [lf]
    let used := used + 1
    let pem := pem.write used [0]
    let s := { s with pem := pem, used := used }
    if strncmpEq (stringIn s.line) pemEnd 8 = true then (some (.captured used), s) else (none, s)

/-- The loop body of `prv_read_pem` behind `prv_read_line`. -/
def handleLine (label : List UInt8) (s : Capture) : Option PemReturn × Capture :=
  if s.n = 0 then
    if s.seenInput = false then (some .cancelled, s) else (none, s)
  else
    let s := { s with seenInput := true }
    if s.used = 0 ∧ stringIn s.line = cancel then (some .cancelled, s)
    else if strncmpEq (stringIn s.line) pemBegin 10 = true then
      storeLine { s with used := 0, tooLarge := false, wrongType := (strstr (stringIn s.line) label).isNone }
    else if s.used = 0 ∧ s.wrongType = false then (none, s)
    else storeLine s

/-- `prv_read_pem` from one character to the next. -/
def captureChar (label : List UInt8) (s : Capture) (c : UInt8) : Option PemReturn × Capture :=
  let r := prvReadLineChar false s.line s.n s.latch c
  let s := { s with line := r.buf, n := r.n, latch := c == cr }
  if r.returned = true then
    let (ret, s) := handleLine label s
    (ret, { s with n := 0 })
  else (none, s)

/-- `prv_read_pem` on the characters that come in: the arrays and locals behind them, and when it returns how,
and the characters not read. -/
def captureRun (label : List UInt8) : Capture → List UInt8 → Capture × Option (PemReturn × List UInt8)
  | s, [] => (s, none)
  | s, c :: rest =>
    match captureChar label s c with
    | (none, s) => captureRun label s rest
    | (some ret, s) => (s, some (ret, rest))

/-! ### Memory and lists -/

/-- `s_pem` and the flags are those of the capture on lists. -/
structure Represents (s : Capture) (t : PemState) : Prop where
  size : s.pem.size = iotcConfigPemMax
  inside : s.pem.overrun = false
  text : slice s.pem.bytes 0 s.used = t.pem
  room : s.used + 1 < iotcConfigPemMax
  clean : ∀ c ∈ t.pem, c ≠ 0
  seenInput : s.seenInput = t.seenInput
  tooLarge : s.tooLarge = t.tooLarge
  wrongType : s.wrongType = t.wrongType

theorem Represents.length {s : Capture} {t : PemState} (h : Represents s t) : t.pem.length = s.used := by
  rw [← h.text, slice_length]

/-- `line` holds a complete line. -/
structure HoldsLine (s : Capture) (line : List UInt8) : Prop where
  size : s.line.size = 96
  holds : Holds s.line s.n line
  nul : s.line.bytes s.n = 0

theorem HoldsLine.isLine {s : Capture} {line : List UInt8} (h : HoldsLine s line) : IsLine 96 line := by
  have hline := h.holds.isLine
  rwa [h.size] at hline

theorem HoldsLine.text {s : Capture} {line : List UInt8} (h : HoldsLine s line) : stringIn s.line = line := by
  have hshort := h.isLine.short
  rw [h.holds.length] at hshort
  have hsplit := slice_add s.line.bytes 0 s.n (1 + (95 - s.n))
  rw [show s.n + (1 + (95 - s.n)) = 96 by omega, h.holds.text, slice_add, Nat.zero_add] at hsplit
  have hnul : slice s.line.bytes s.n 1 = [0] := by simp [slice, h.nul]
  rw [stringIn, h.size, hsplit, hnul, List.singleton_append, cstr_append_nul h.isLine.clean]

theorem HoldsLine.startsWith {s : Capture} {line lit : List UInt8} (h : HoldsLine s line) {k : ℕ}
    (hk : lit.length = k) (hlit : ∀ c ∈ lit, c ≠ 0) :
    strncmpEq (stringIn s.line) lit k = true ↔ Cli.startsWith line lit = true := by
  have hline := h.isLine.clean
  rw [h.text, strncmpEq_iff hk hline hlit, Cli.startsWith, List.isPrefixOf_iff_prefix]

/-- What a return means on the list. -/
def Answers (s : Capture) (t : PemState) (out : PemResult ⊕ PemState) : Option PemReturn → Prop
  | none => out = .inr t
  | some .cancelled => out = .inl .cancelled
  | some .wrongType => out = .inl .wrongType
  | some .tooLarge => out = .inl .tooLarge
  | some (.captured used) => out = .inl (.captured t.pem) ∧ used = s.used ∧ s.pem.bytes used = 0

section

variable {label : List UInt8} {s : Capture} {t : PemState} {line : List UInt8}

/-- The three writes of a line into `s_pem`. -/
theorem Represents.store (hs : Represents s t) (hline : Holds s.line s.n line)
    (hroom : t.pem.length + line.length + 2 < iotcConfigPemMax) :
    let pem := ((s.pem.write s.used (slice s.line.bytes 0 s.n)).write (s.used + s.n) [lf]).write
      (s.used + s.n + 1) [0]
    Represents { s with pem := pem, used := s.used + s.n + 1 } { t with pem := t.pem ++ line ++ [lf] } ∧
      pem.bytes (s.used + s.n + 1) = 0 := by
  have hused := hs.length
  have hn := hline.length
  rw [hline.text]
  refine ⟨⟨hs.size, ?_, ?_, ?_, ?_, hs.seenInput, hs.tooLarge, hs.wrongType⟩, Buffer.write_at _ _ _⟩
  · have hsize := hs.size
    rw [Buffer.write_overrun _ (by simp; omega), Buffer.write_overrun _ (by simp; omega),
      Buffer.write_overrun _ (by omega), hs.inside]
  · have hfirst := s.pem.write_append s.used line
    have hsecond := (s.pem.write s.used line).write_append (s.used + s.n) [lf]
    rw [hn, hs.text] at hfirst
    rw [List.length_singleton, hfirst] at hsecond
    rw [Buffer.write_before _ [0] (Nat.le_refl _), hsecond]
  · dsimp only
    omega
  · intro c hc
    rcases List.mem_append.mp hc with hc | hc
    · rcases List.mem_append.mp hc with hc | hc
      · exact hs.clean c hc
      · exact hline.isLine.clean c hc
    · rw [List.mem_singleton.mp hc]
      decide

theorem storeLine_spec (hs : Represents s t) (hline : HoldsLine s line) :
    (storeLine s).2.line = s.line ∧ (storeLine s).2.latch = s.latch ∧
      ∃ t', Represents (storeLine s).2 t' ∧
        Answers (storeLine s).2 t' (pemStore t line) (storeLine s).1 := by
  have hend := hline.startsWith (show pemEnd.length = 8 from rfl) (by decide +kernel)
  have hwrong : s.wrongType = true ↔ t.wrongType = true := by rw [hs.wrongType]
  rw [storeLine, pemStore]
  by_cases hother : t.wrongType = true
  · rw [if_pos (hwrong.mpr hother), if_pos hother]
    by_cases hstop : startsWith line pemEnd = true
    · rw [if_pos (hend.mpr hstop), if_pos hstop]
      exact ⟨rfl, rfl, t, hs, rfl⟩
    · rw [if_neg fun h => hstop (hend.mp h), if_neg hstop]
      exact ⟨rfl, rfl, t, hs, rfl⟩
  rw [if_neg fun h => hother (hwrong.mp h), if_neg hother]
  have hlarge : (s.tooLarge = true ∨ s.pem.size ≤ s.used + s.n + 2) ↔
      t.tooLarge = true ∨ iotcConfigPemMax ≤ t.pem.length + line.length + 2 := by
    rw [hs.tooLarge, hs.size, hs.length, hline.holds.length]
  by_cases hover : t.tooLarge = true ∨ iotcConfigPemMax ≤ t.pem.length + line.length + 2
  · rw [if_pos (hlarge.mpr hover), if_pos hover]
    have hs' : Represents { s with tooLarge := true } { t with tooLarge := true } :=
      ⟨hs.size, hs.inside, hs.text, hs.room, hs.clean, hs.seenInput, rfl, hs.wrongType⟩
    dsimp only
    by_cases hstop : startsWith line pemEnd = true
    · rw [if_pos (hend.mpr hstop), if_pos hstop]
      exact ⟨rfl, rfl, _, hs', rfl⟩
    · rw [if_neg fun h => hstop (hend.mp h), if_neg hstop]
      exact ⟨rfl, rfl, _, hs', rfl⟩
  rw [if_neg fun h => hover (hlarge.mp h), if_neg hover]
  obtain ⟨hs', hnul⟩ := hs.store hline.holds (not_le.mp fun h => hover (Or.inr h))
  dsimp only
  by_cases hstop : startsWith line pemEnd = true
  · rw [if_pos (hend.mpr hstop), if_pos hstop]
    exact ⟨rfl, rfl, _, hs', rfl, rfl, hnul⟩
  · rw [if_neg fun h => hstop (hend.mp h), if_neg hstop]
    exact ⟨rfl, rfl, _, hs', rfl⟩

variable (label) in
/-- **One line** does to `s_pem` and the flags what it does to the capture on lists. -/
theorem handleLine_spec (hs : Represents s t) (hline : HoldsLine s line) :
    (handleLine label s).2.line = s.line ∧ (handleLine label s).2.latch = s.latch ∧
      ∃ t', Represents (handleLine label s).2 t' ∧
        Answers (handleLine label s).2 t' (pemLine label t line) (handleLine label s).1 := by
  have hblank : s.n = 0 ↔ line = [] := by
    rw [← hline.holds.length, List.length_eq_zero_iff]
  have hseen : s.seenInput = false ↔ t.seenInput = false := by rw [hs.seenInput]
  rw [handleLine, pemLine]
  by_cases hnil : line = []
  · rw [if_pos (hblank.mpr hnil), if_pos hnil]
    by_cases hfirst : t.seenInput = false
    · rw [if_pos (hseen.mpr hfirst), if_pos hfirst]
      exact ⟨rfl, rfl, t, hs, rfl⟩
    · rw [if_neg fun h => hfirst (hseen.mp h), if_neg hfirst]
      exact ⟨rfl, rfl, t, hs, rfl⟩
  rw [if_neg fun h => hnil (hblank.mp h), if_neg hnil]
  have hs1 : Represents { s with seenInput := true } { t with seenInput := true } :=
    ⟨hs.size, hs.inside, hs.text, hs.room, hs.clean, rfl, hs.tooLarge, hs.wrongType⟩
  have hline1 : HoldsLine { s with seenInput := true } line := ⟨hline.size, hline.holds, hline.nul⟩
  have hempty : s.used = 0 ↔ t.pem = [] := by
    rw [← hs.length, List.length_eq_zero_iff]
  have hcancel : s.used = 0 ∧ stringIn s.line = cancel ↔ t.pem = [] ∧ line = cancel := by
    rw [hempty, hline.text]
  have hbegin := hline.startsWith (show pemBegin.length = 10 from rfl) (by decide +kernel)
  have houtside : s.used = 0 ∧ s.wrongType = false ↔ t.pem = [] ∧ t.wrongType = false := by
    rw [hempty, hs.wrongType]
  dsimp only
  by_cases hc : t.pem = [] ∧ line = cancel
  · rw [if_pos (hcancel.mpr hc), if_pos hc]
    exact ⟨rfl, rfl, _, hs1, rfl⟩
  rw [if_neg fun h => hc (hcancel.mp h), if_neg hc]
  by_cases hb : startsWith line pemBegin = true
  · rw [if_pos (hbegin.mpr hb), if_pos hb, hline.text]
    have hs2 : Represents { s with
          seenInput := true, used := 0, tooLarge := false, wrongType := (strstr line label).isNone }
        { t with
          seenInput := true, pem := [], tooLarge := false, wrongType := (strstr line label).isNone } :=
      ⟨hs.size, hs.inside, rfl, show 0 + 1 < iotcConfigPemMax by decide,
        fun _ h => absurd h List.not_mem_nil, rfl, rfl, rfl⟩
    exact storeLine_spec hs2 ⟨hline.size, hline.holds, hline.nul⟩
  rw [if_neg fun h => hb (hbegin.mp h), if_neg hb]
  by_cases ho : t.pem = [] ∧ t.wrongType = false
  · rw [if_pos (houtside.mpr ho), if_pos ho]
    exact ⟨rfl, rfl, _, hs1, rfl⟩
  · rw [if_neg fun h => ho (houtside.mp h), if_neg ho]
    exact storeLine_spec hs1 hline1

end

/-- The arrays in the middle of a line, and the capture on lists there. -/
structure Inside (s : Capture) (t : PemState) (buf : List UInt8) : Prop where
  pem : Represents s t
  size : s.line.size = 96
  line : Holds s.line s.n buf

theorem Inside.start (pem line : Mem) (latch : Bool) :
    Inside (Capture.start pem line latch) .start [] := by
  refine ⟨⟨rfl, ?_, rfl, show 0 + 1 < iotcConfigPemMax by decide,
    fun _ h => absurd h List.not_mem_nil, rfl, rfl, rfl⟩, rfl, rfl, ?_, rfl⟩
  · exact Buffer.write_overrun _ (show 0 + 1 ≤ iotcConfigPemMax by decide)
  · exact ⟨Nat.zero_le _, fun _ h => absurd h List.not_mem_nil⟩

/-- What a run leaves: in bounds, and with the result of the capture on lists; a block that is captured
stands in `s_pem` and ends with a NUL. -/
structure Simulates (run : Capture × Option (PemReturn × List UInt8))
    (list : Option (ReadResult PemResult)) : Prop where
  inside : run.1.pem.overrun = false ∧ run.1.line.overrun = false
  waits : run.2 = none → list = none
  returns : ∀ {ret rest}, run.2 = some (ret, rest) → ∃ r, list = some r ∧ r.rest = rest ∧
    ∃ t, Represents run.1 t ∧ Answers run.1 t (.inl r.result) (some ret)

/-- **The arrays follow the lists**, whatever characters come in. -/
theorem capture_simulates (label : List UInt8) {s : Capture} {t : PemState} {buf : List UInt8}
    (h : Inside s t buf) (input : List UInt8) :
    Simulates (captureRun label s input) (pemRunFrom label t buf s.latch input) := by
  induction input generalizing s t buf with
  | nil => exact ⟨⟨h.pem.inside, h.line.inside⟩, fun _ => rfl, fun h => by contradiction⟩
  | cons c rest ih =>
    obtain ⟨hsize, line', hholds, hread⟩ := lineChar_spec h.line (by rw [h.size]; decide) false s.latch c rest
    rw [h.size] at hsize hread
    rw [captureRun, captureChar]
    dsimp only
    have hpem : Represents { s with
        line := (prvReadLineChar false s.line s.n s.latch c).buf
        n := (prvReadLineChar false s.line s.n s.latch c).n
        latch := c == cr } t :=
      ⟨h.pem.size, h.pem.inside, h.pem.text, h.pem.room, h.pem.clean, h.pem.seenInput, h.pem.tooLarge,
        h.pem.wrongType⟩
    by_cases hret : (prvReadLineChar false s.line s.n s.latch c).returned = true
    · rw [if_pos hret] at hread ⊢
      obtain ⟨hnul, hread⟩ := hread
      obtain ⟨hline, hlatch, t', hs', hanswer⟩ := handleLine_spec label hpem
        ⟨hsize, hholds, hnul⟩
      rw [pemRunFrom_handed hread]
      rcases hout : handleLine label { s with
        line := (prvReadLineChar false s.line s.n s.latch c).buf
        n := (prvReadLineChar false s.line s.n s.latch c).n
        latch := c == cr } with ⟨ret, s'⟩
      rw [hout] at hline hlatch hs' hanswer
      dsimp only at hline hlatch hs' hanswer ⊢
      have hinside : s'.line.overrun = false := by rw [hline, hholds.inside]
      -- the reader starts a new line
      have hs'' : Represents { s' with n := 0 } t' :=
        ⟨hs'.size, hs'.inside, hs'.text, hs'.room, hs'.clean, hs'.seenInput, hs'.tooLarge, hs'.wrongType⟩
      cases ret with
      | none =>
        rw [show pemLine label t line' = .inr t' from hanswer, pemNext, ← hlatch]
        exact ih (s := { s' with n := 0 }) ⟨hs'', by rw [← hsize, ← hline], hinside,
          ⟨Nat.zero_le _, fun _ h => absurd h List.not_mem_nil⟩, rfl⟩
      | some ret =>
        obtain ⟨res, hres⟩ : ∃ res, pemLine label t line' = .inl res := by
          cases ret with
          | cancelled => exact ⟨_, hanswer⟩
          | wrongType => exact ⟨_, hanswer⟩
          | tooLarge => exact ⟨_, hanswer⟩
          | captured used => exact ⟨_, hanswer.1⟩
        rw [hres] at hanswer ⊢
        refine ⟨⟨hs''.inside, hinside⟩, fun h => by contradiction, fun {ret' rest'} h => ?_⟩
        obtain ⟨rfl, rfl⟩ := Prod.mk.inj (Option.some.inj h)
        exact ⟨_, rfl, rfl, t', hs'', hanswer⟩
    · rw [if_neg hret] at hread ⊢
      rw [pemRunFrom_congr hread]
      exact ih ⟨hpem, hsize, hholds⟩

/-! ### What `set cert` and `set key` get -/

open Config (Field Files ReadAnswer iotcConfigRead iotcConfigLoad)

/-- What stands in `s_pem` when `prv_read_pem` returns `used`. -/
structure Captured (label : List UInt8) (s : Capture) (used : ℕ) : Prop where
  bound : used + 2 ≤ s.pem.size
  nul : s.pem.bytes used = 0
  string : stringIn s.pem = slice s.pem.bytes 0 used
  block : ∃ start body last,
    slice s.pem.bytes 0 used = joinLines (start :: body ++ [last]) ∧
    (∀ line ∈ start :: body ++ [last], IsLine 96 line) ∧
    (startsWith start pemBegin = true ∧ strstr start label ≠ none) ∧
    (∀ line ∈ body, startsWith line pemBegin = false ∧ startsWith line pemEnd = false) ∧
    startsWith last pemEnd = true ∧ startsWith last pemBegin = false
  read : ∀ (files : Files) (f : Field) (io : ReadAnswer), f.max = iotcConfigPemMax →
    files f = some (slice s.pem.bytes 0 used) → (io.init && io.opens && io.reads) = true →
    iotcConfigRead files f f.max io = ((used : ℤ), slice s.pem.bytes 0 used ++ [0])
  load : ∀ (files : Files) (f : Field) (io : Field → ReadAnswer), f.max = iotcConfigPemMax →
    files f = some (slice s.pem.bytes 0 used) → (iotcConfigLoad files io).1 = 0 →
    (iotcConfigLoad files io).2.get f = some (slice s.pem.bytes 0 used)

/-- A refused block was read up to and with its END line: the characters not read come behind it. -/
def Swallowed (label : List UInt8) (latch : Bool) (input rest : List UInt8) (ret : PemReturn) : Prop :=
  ∃ lines latch' start body last, LinesRead latch input lines latch' rest ∧
    Whole lines start body last ∧
    if ret = .wrongType then strstr start label = none
    else strstr start label ≠ none ∧
      iotcConfigPemMax ≤ (joinLines (storedLines start body ++ [last])).length + 1

structure CaptureSound (label : List UInt8) (latch : Bool) (input : List UInt8)
    (run : Capture × Option (PemReturn × List UInt8)) : Prop where
  inside : run.1.pem.overrun = false ∧ run.1.line.overrun = false
  captured : ∀ {used rest}, run.2 = some (.captured used, rest) → Captured label run.1 used
  refused : ∀ {ret rest}, run.2 = some (ret, rest) → ret = .wrongType ∨ ret = .tooLarge →
    Swallowed label latch input rest ret

/-- What is in `s_pem` comes back from the store. -/
theorem captured_of_represents {label : List UInt8} {s : Capture} {t : PemState}
    {start last : List UInt8} {body lines : List (List UInt8)} (hs : Represents s t)
    (hnul : s.pem.bytes s.used = 0) (hlines : ∀ line ∈ lines, IsLine 96 line)
    (hblock : Whole lines start body last) (hlabel : strstr start label ≠ none)
    (hpem : t.pem = joinLines (storedLines start body ++ [last])) : Captured label s s.used := by
  have hroom := hs.room
  have hsize := hs.size
  have hclean : (0 : UInt8) ∉ t.pem := fun h0 => hs.clean 0 h0 rfl
  have hne : t.pem ≠ [] := by
    rw [hpem]
    simp [joinLines, storedLines]
  have hlen : t.pem.length < iotcConfigPemMax := by
    rw [hs.length]
    omega
  obtain ⟨before, hsplit⟩ := hblock.split
  constructor
  · omega
  · exact hnul
  · have hrest := slice_add s.pem.bytes 0 s.used (1 + (iotcConfigPemMax - s.used - 1))
    rw [show s.used + (1 + (iotcConfigPemMax - s.used - 1)) = iotcConfigPemMax by omega, hs.text,
      slice_add, Nat.zero_add] at hrest
    have hone : slice s.pem.bytes s.used 1 = [0] := by simp [slice, hnul]
    rw [stringIn, hsize, hrest, hone, hs.text, cstr, List.takeWhile_append_of_pos, List.singleton_append,
      List.takeWhile_cons_of_neg (by decide), List.append_nil]
    exact fun c hc => decide_eq_true (hs.clean c hc)
  · refine ⟨start, body.filter (· ≠ []), last, by rw [hs.text, hpem]; rfl, ?_,
      ⟨hblock.start, hlabel⟩, ?_, hblock.last⟩
    · intro line hline
      apply hlines
      rw [hsplit]
      rcases List.mem_append.mp hline with hline | hline
      · rcases List.mem_cons.mp hline with hline | hline
        · rw [hline]
          simp
        · have hbody := List.mem_of_mem_filter hline
          simp [hbody]
      · rw [List.mem_singleton.mp hline]
        simp
    · exact fun line hline => hblock.body line (List.mem_of_mem_filter hline)
  · intro files f io hmax hfile hio
    simp only [Bool.and_eq_true] at hio
    obtain ⟨⟨hinit, hopens⟩, hreads⟩ := hio
    have htake : t.pem.take (iotcConfigPemMax - 1) = t.pem := List.take_of_length_le (by omega)
    rw [hs.text] at hfile ⊢
    rw [iotcConfigRead, hmax, hfile, hinit, hopens, hreads]
    simp only [htake, hs.length]
    rfl
  · intro files f io hmax hfile hrc
    rw [hs.text] at hfile ⊢
    have hio := ((Config.iotcConfigLoad_rc files io).mp hrc).1 f
    rw [Config.iotcConfigLoad_get hrc]
    exact (Config.prvLoadField_same hio hfile hne hclean).mpr (by rwa [hmax])

/-- **PEM capture.**  Whatever the arrays hold before and whatever characters come in, no write leaves an
array; what is captured is a block of the wanted type that comes back from the store; and a block that is
refused has been read up to its END line. -/
theorem pem_capture_sound (label : List UInt8) (pem line : Mem) (latch : Bool) (input : List UInt8) :
    CaptureSound label latch input (captureRun label (.start pem line latch) input) := by
  have hsim := capture_simulates label (Inside.start pem line latch) input
  have hopen := open_start label
  refine ⟨hsim.inside, fun {used rest} h => ?_, fun {ret rest} h hret => ?_⟩
  · obtain ⟨r, hr, -, t, ht, hanswer⟩ := hsim.returns h
    obtain ⟨lines, -, hlines, hclosed⟩ := closed_of_run hopen hr
    obtain ⟨hres, hused, hnul⟩ := hanswer
    rw [Sum.inl.inj hres] at hclosed
    obtain ⟨start, body, last, hblock, hlabel, hpem, -⟩ := hclosed
    subst hused
    exact captured_of_represents ht hnul hlines hblock hlabel hpem
  · obtain ⟨r, hr, hrest, t, ht, hanswer⟩ := hsim.returns h
    obtain ⟨lines, hread, -, hclosed⟩ := closed_of_run hopen hr
    rw [hrest] at hread
    rcases hret with rfl | rfl
    · rw [Sum.inl.inj hanswer] at hclosed
      obtain ⟨start, body, last, hblock, hlabel⟩ := hclosed
      exact ⟨lines, _, start, body, last, hread, hblock, hlabel⟩
    · rw [Sum.inl.inj hanswer] at hclosed
      obtain ⟨start, body, last, hblock, hlabel, hlarge⟩ := hclosed
      exact ⟨lines, _, start, body, last, hread, hblock, hlabel, hlarge⟩

end IotcRa8p1.App.Cli
