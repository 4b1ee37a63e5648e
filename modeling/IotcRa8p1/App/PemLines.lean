import IotcRa8p1.App.Cli
import Mathlib.Data.List.Infix

/-!
# What the capture makes of its lines

The loop body of `prv_read_pem` on one line after another, whatever characters they were read from.
`Open` says what the locals mean for the lines handed over so far, `Closed` what these are when the
capture ends, `Ends` which line ends it.  `pemLines_cases` is the run: lines that leave the capture open,
or the first one that ends it.
-/

namespace IotcRa8p1.App.Cli

open CString

/-! ### The lines of a block -/

/-- Lines as `s_pem` holds them: each followed by one LF. -/
def joinLines (lines : List (List UInt8)) : List UInt8 := lines.flatMap (· ++ [lf])

theorem joinLines_concat (lines : List (List UInt8)) (line : List UInt8) :
    joinLines (lines ++ [line]) = joinLines lines ++ line ++ [lf] := by
  simp [joinLines]

/-- The first line of a text. -/
theorem takeWhile_line {x rest : List UInt8} (hx : lf ∉ x) :
    (x ++ lf :: rest).takeWhile (· != lf) = x := by
  rw [List.takeWhile_append_of_pos fun c hc => by simpa using ne_of_mem_of_not_mem hc hx]
  simp

/-- The text says which lines it was made of. -/
theorem joinLines_inj {xs ys : List (List UInt8)} (hx : ∀ x ∈ xs, lf ∉ x) (hy : ∀ y ∈ ys, lf ∉ y)
    (h : joinLines xs = joinLines ys) : xs = ys := by
  induction xs generalizing ys with
  | nil =>
    cases ys with
    | nil => rfl
    | cons y ys => simp [joinLines] at h
  | cons x xs ih =>
    cases ys with
    | nil => simp [joinLines] at h
    | cons y ys =>
      simp only [joinLines, List.flatMap_cons, List.append_assoc, List.singleton_append] at h
      have hxy : x = y := by
        have hcut := congrArg (List.takeWhile (· != lf)) h
        rwa [takeWhile_line (hx x List.mem_cons_self), takeWhile_line (hy y List.mem_cons_self)]
          at hcut
      subst hxy
      have hrest := List.cons.inj (List.append_cancel_left h)
      rw [ih (fun z hz => hx z (List.mem_cons_of_mem _ hz))
        (fun z hz => hy z (List.mem_cons_of_mem _ hz)) hrest.2]

/-- Inside a block of the wrong type. -/
structure Wrong (s : PemState) : Prop where
  seen : s.seenInput = true
  wrong : s.wrongType = true
  pem : s.pem = []

/-- Inside a block of the wanted type, when `lines` have been handed over. -/
structure Right (s : PemState) (lines : List (List UInt8)) : Prop where
  seen : s.seenInput = true
  right : s.wrongType = false
  begun : s.pem ≠ []
  large : s.tooLarge = true → iotcConfigPemMax ≤ (joinLines lines).length + 1
  fits : s.tooLarge = false → s.pem = joinLines lines ∧
    (joinLines lines).length + 1 < iotcConfigPemMax

/-- A line that is neither a BEGIN nor an END line. -/
structure Inner (line : List UInt8) : Prop where
  nonblank : line ≠ []
  notBegin : startsWith line pemBegin = false
  notEnd : startsWith line pemEnd = false

variable {label : List UInt8} {s : PemState} {lines : List (List UInt8)} {line : List UInt8}

/-- In a block, a line goes to the second half of the loop body. -/
theorem pemLine_stored (hseen : s.seenInput = true) (hline : line ≠ [])
    (hcancel : ¬ (s.pem = [] ∧ line = cancel)) (hbegin : startsWith line pemBegin = false)
    (hblock : ¬ (s.pem = [] ∧ s.wrongType = false)) : pemLine label s line = pemStore s line := by
  have hs : { s with seenInput := true } = s := by
    rw [← hseen]
  rw [pemLine, if_neg hline]
  simp only [hs]
  rw [if_neg hcancel, if_neg (by simp [hbegin]), if_neg hblock]

theorem Wrong.inner (h : Wrong s) (hl : Inner line) :
    pemLine label s line = if line = cancel then .inl .cancelled else .inr s := by
  by_cases hc : line = cancel
  · rw [pemLine, if_neg hl.nonblank, if_pos hc]
    exact if_pos ⟨h.pem, hc⟩
  · rw [if_neg hc, pemLine_stored h.seen hl.nonblank (fun hp => hc hp.2) hl.notBegin (by simp [h.wrong]),
      pemStore, if_pos h.wrong, if_neg (by simp [hl.notEnd])]

/-- An END line ends a block of the wrong type. -/
theorem Wrong.close (h : Wrong s) (hbegin : startsWith line pemBegin = false)
    (hend : startsWith line pemEnd = true) : pemLine label s line = .inl .wrongType := by
  have hline : line ≠ [] := by
    rintro rfl
    exact absurd hend (by decide)
  have hcancel : ¬ (s.pem = [] ∧ line = cancel) := by
    rintro ⟨-, rfl⟩
    exact absurd hend (by decide)
  rw [pemLine_stored h.seen hline hcancel hbegin (by simp [h.wrong]), pemStore, if_pos h.wrong,
    if_pos hend]

/-- The test for size, in the text there would be. -/
theorem Right.overflows (h : Right s lines) (line : List UInt8) :
    (s.tooLarge = true ∨ iotcConfigPemMax ≤ s.pem.length + line.length + 2) ↔
      iotcConfigPemMax ≤ (joinLines (lines ++ [line])).length + 1 := by
  rw [joinLines_concat, List.length_append, List.length_append, List.length_singleton]
  cases ht : s.tooLarge with
  | true =>
    have hlarge := h.large ht
    exact ⟨fun _ => by omega, fun _ => Or.inl rfl⟩
  | false =>
    rw [(h.fits ht).1]
    constructor
    · rintro (hf | hf)
      · contradiction
      · omega
    · exact fun hf => Or.inr (by omega)

theorem Right.inner (h : Right s lines) (hl : Inner line) :
    ∃ s', pemLine label s line = .inr s' ∧ Right s' (lines ++ [line]) := by
  rw [pemLine_stored h.seen hl.nonblank (fun hp => h.begun hp.1) hl.notBegin (fun hp => h.begun hp.1)]
  dsimp only [pemStore]
  rw [if_neg (by simp [h.right])]
  by_cases hover : s.tooLarge = true ∨ iotcConfigPemMax ≤ s.pem.length + line.length + 2
  · rw [if_pos hover, if_neg (by simp [hl.notEnd])]
    exact ⟨_, rfl, h.seen, h.right, h.begun, fun _ => (h.overflows line).mp hover,
      fun hf => nomatch hf⟩
  · have hno : s.tooLarge = false := by simpa using fun ht => hover (Or.inl ht)
    rw [if_neg hover, if_neg (by simp [hl.notEnd])]
    refine ⟨_, rfl, h.seen, h.right, by simp, fun ht => absurd (hno.symm.trans ht) (by decide),
      fun _ => ⟨?_, not_le.mp fun hle => hover ((h.overflows line).mpr hle)⟩⟩
    dsimp only
    rw [(h.fits hno).1, joinLines_concat]

/-- An END line ends a block of the wanted type. -/
theorem Right.close (h : Right s lines) (hbegin : startsWith line pemBegin = false)
    (hend : startsWith line pemEnd = true) :
    pemLine label s line = .inl
      (if iotcConfigPemMax ≤ (joinLines (lines ++ [line])).length + 1 then .tooLarge
        else .captured (joinLines (lines ++ [line]))) := by
  have hline : line ≠ [] := by
    rintro rfl
    exact absurd hend (by decide)
  rw [pemLine_stored h.seen hline (fun hp => h.begun hp.1) hbegin (fun hp => h.begun hp.1)]
  dsimp only [pemStore]
  rw [if_neg (by simp [h.right])]
  by_cases hover : s.tooLarge = true ∨ iotcConfigPemMax ≤ s.pem.length + line.length + 2
  · rw [if_pos hover, if_pos hend, if_pos ((h.overflows line).mp hover)]
  · have hno : s.tooLarge = false := by simpa using fun ht => hover (Or.inl ht)
    rw [if_neg hover, if_pos hend, if_neg fun hle => hover ((h.overflows line).mpr hle),
      (h.fits hno).1, joinLines_concat]

/-- A BEGIN line starts a block, whatever came before. -/
theorem pemLine_begin (hbegin : startsWith line pemBegin = true) (hlen : line.length ≤ 95) :
    ∃ s', pemLine label s line = .inr s' ∧
      (strstr line label = none → Wrong s') ∧ (strstr line label ≠ none → Right s' [line]) := by
  have hline : line ≠ [] := by
    rintro rfl
    exact absurd hbegin (by decide)
  have hcancel : line ≠ cancel := by
    rintro rfl
    exact absurd hbegin (by decide)
  have hend : startsWith line pemEnd = false := by
    cases he : startsWith line pemEnd with
    | false => rfl
    | true =>
      rw [startsWith, List.isPrefixOf_iff_prefix] at hbegin he
      have hpre := List.prefix_of_prefix_length_le he hbegin (by decide)
      exact absurd hpre (by decide)
  rw [pemLine, if_neg hline]
  dsimp only
  rw [if_neg (fun hp => hcancel hp.2), if_pos hbegin]
  dsimp only [pemStore]
  cases hl : strstr line label with
  | none =>
    simp only [Option.isNone_none, if_true, hend]
    exact ⟨_, rfl, fun _ => ⟨rfl, rfl, rfl⟩, fun h => absurd rfl h⟩
  | some t =>
    have hsmall : ¬ (false = true ∨
        iotcConfigPemMax ≤ ([] : List UInt8).length + line.length + 2) := by
      rintro (hf | hf)
      · contradiction
      · simp only [List.length_nil, iotcConfigPemMax] at hf
        omega
    simp only [Option.isNone_some]
    rw [if_neg (by decide), if_neg hsmall, if_neg (by simp [hend])]
    refine ⟨_, rfl, fun h => absurd h (by simp), fun _ => ?_⟩
    have hj : joinLines [line] = line ++ [lf] := by simp [joinLines]
    refine ⟨rfl, rfl, by simp, fun h => absurd h (by simp), fun _ => ?_⟩
    rw [hj, List.length_append, List.length_singleton]
    exact ⟨rfl, by simp only [iotcConfigPemMax]; omega⟩

/-! ### The locals and the lines -/

/-- The lines end with a block that has begun: its BEGIN line, and lines that are neither BEGIN nor END. -/
structure InBlock (lines : List (List UInt8)) (start : List UInt8) (body : List (List UInt8)) :
    Prop where
  split : ∃ before, lines = before ++ start :: body
  start : startsWith start pemBegin = true
  body : ∀ line ∈ body, startsWith line pemBegin = false ∧ startsWith line pemEnd = false

theorem InBlock.snoc {lines body : List (List UInt8)} {start line : List UInt8}
    (h : InBlock lines start body)
    (hline : startsWith line pemBegin = false ∧ startsWith line pemEnd = false) :
    InBlock (lines ++ [line]) start (body ++ [line]) := by
  obtain ⟨before, hbefore⟩ := h.split
  refine ⟨⟨before, by rw [hbefore]; simp⟩, h.start, fun x hx => ?_⟩
  rcases List.mem_append.mp hx with hx | hx
  · exact h.body x hx
  · rwa [List.mem_singleton.mp hx]

/-- A line among `lines` and one more is that one, or stands before it. -/
theorem split_snoc {lines pre post : List (List UInt8)} {line x : List UInt8}
    (h : lines ++ [line] = pre ++ x :: post) :
    (pre = lines ∧ x = line ∧ post = []) ∨ ∃ post', post = post' ++ [line] ∧ lines = pre ++ x :: post' := by
  obtain ⟨as, has, hrest⟩ | ⟨as, has, hrest⟩ := List.append_eq_append_iff.mp h
  · cases as with
    | nil =>
      obtain ⟨rfl, rfl⟩ := List.cons.inj hrest
      exact Or.inl ⟨by simpa using has, rfl, rfl⟩
    | cons a as => simp at hrest
  · cases as with
    | nil =>
      obtain ⟨rfl, rfl⟩ := List.cons.inj hrest
      exact Or.inl ⟨by simpa using has.symm, rfl, rfl⟩
    | cons a as =>
      obtain ⟨rfl, rfl⟩ := List.cons.inj hrest
      exact Or.inr ⟨as, rfl, has⟩

theorem notInBlock_snoc {lines : List (List UInt8)} {line : List UInt8}
    (h : ∀ start body, ¬ InBlock lines start body) (hline : startsWith line pemBegin = false)
    (start : List UInt8) (body : List (List UInt8)) : ¬ InBlock (lines ++ [line]) start body := by
  intro hb
  obtain ⟨before, hbefore⟩ := hb.split
  obtain ⟨-, rfl, -⟩ | ⟨body', rfl, hlines⟩ := split_snoc hbefore
  · exact absurd hb.start (by simp [hline])
  · exact h start body' ⟨⟨before, hlines⟩, hb.start, fun x hx => hb.body x (List.mem_append_left _ hx)⟩

/-- The lines of a block as they are stored: blank ones are left out. -/
def storedLines (start : List UInt8) (body : List (List UInt8)) : List (List UInt8) :=
  start :: body.filter (· ≠ [])

/-- What the locals mean when `lines` have been read. -/
inductive Open (label : List UInt8) (s : PemState) (lines : List (List UInt8)) : Prop
  | outside (hpem : s.pem = []) (hwrong : s.wrongType = false)
      (hnone : ∀ start body, ¬ InBlock lines start body)
  | wrong {start : List UInt8} {body : List (List UInt8)} (hblock : InBlock lines start body)
      (hlabel : strstr start label = none) (hs : Wrong s)
  | right {start : List UInt8} {body : List (List UInt8)} (hblock : InBlock lines start body)
      (hlabel : strstr start label ≠ none) (hs : Right s (storedLines start body))

theorem open_start (label : List UInt8) : Open label .start [] := by
  refine .outside rfl rfl fun start body h => ?_
  obtain ⟨before, hbefore⟩ := h.split
  simp at hbefore

/-- The lines end with a whole block, closed by the END line that was read last. -/
structure Whole (lines : List (List UInt8)) (start : List UInt8) (body : List (List UInt8))
    (last : List UInt8) : Prop where
  split : ∃ before, lines = before ++ start :: body ++ [last]
  start : startsWith start pemBegin = true
  body : ∀ line ∈ body, startsWith line pemBegin = false ∧ startsWith line pemEnd = false
  last : startsWith last pemEnd = true ∧ startsWith last pemBegin = false

/-- What the lines are when the capture ends. -/
def Closed (label : List UInt8) (lines : List (List UInt8)) : PemResult → Prop
  | .cancelled => True
  | .wrongType => ∃ start body last, Whole lines start body last ∧ strstr start label = none
  | .tooLarge => ∃ start body last, Whole lines start body last ∧ strstr start label ≠ none ∧
      iotcConfigPemMax ≤ (joinLines (storedLines start body ++ [last])).length + 1
  | .captured pem => ∃ start body last, Whole lines start body last ∧ strstr start label ≠ none ∧
      pem = joinLines (storedLines start body ++ [last]) ∧ pem.length + 1 < iotcConfigPemMax

theorem InBlock.close {lines body : List (List UInt8)} {start line : List UInt8}
    (h : InBlock lines start body)
    (hline : startsWith line pemEnd = true ∧ startsWith line pemBegin = false) :
    Whole (lines ++ [line]) start body line := by
  obtain ⟨before, hbefore⟩ := h.split
  exact ⟨⟨before, by rw [hbefore]⟩, h.start, h.body, hline⟩

theorem storedLines_blank (start : List UInt8) (body : List (List UInt8)) :
    storedLines start (body ++ [[]]) = storedLines start body := by
  simp [storedLines]

theorem storedLines_snoc (start : List UInt8) (body : List (List UInt8)) {line : List UInt8}
    (h : line ≠ []) : storedLines start (body ++ [line]) = storedLines start body ++ [line] := by
  simp [storedLines, h]

/-! ### The line that ends the capture -/

/-- `line`, read after `lines`, ends the capture: it is the END line of a block, or it says "cancel" and
stands in no block of the wanted type. -/
def Ends (label : List UInt8) (lines : List (List UInt8)) (line : List UInt8) : Prop :=
  (startsWith line pemEnd = true ∧ ∃ start body, InBlock lines start body) ∨
    (line = cancel ∧ ∀ start body, InBlock lines start body → strstr start label = none)

/-- None of the lines does. -/
def StillOpen (label : List UInt8) (lines : List (List UInt8)) : Prop :=
  ∀ pre line post, lines = pre ++ line :: post → ¬ Ends label pre line

/-- The lines end with a whole block of the wanted type that fits. -/
def Completes (label : List UInt8) (lines : List (List UInt8)) : Prop :=
  ∃ start body last, Whole lines start body last ∧ strstr start label ≠ none ∧
    (joinLines (storedLines start body ++ [last])).length + 1 < iotcConfigPemMax

/-- Two readings of one list of lines have the same last BEGIN line. -/
theorem beginLine_unique {before before' body body' : List (List UInt8)} {start start' : List UInt8}
    (h : before ++ start :: body = before' ++ start' :: body')
    (hstart : startsWith start pemBegin = true) (hstart' : startsWith start' pemBegin = true)
    (hbody : ∀ x ∈ body, startsWith x pemBegin = false)
    (hbody' : ∀ x ∈ body', startsWith x pemBegin = false) : start = start' ∧ body = body' := by
  obtain ⟨as, -, hrest⟩ | ⟨as, -, hrest⟩ := List.append_eq_append_iff.mp h
  · cases as with
    | nil => exact List.cons.inj hrest
    | cons a as =>
      have hmem : start' ∈ body := by
        rw [(List.cons.inj hrest).2]
        simp
      exact absurd hstart' (by simp [hbody _ hmem])
  · cases as with
    | nil => exact (List.cons.inj hrest).imp Eq.symm Eq.symm
    | cons a as =>
      have hmem : start ∈ body' := by
        rw [(List.cons.inj hrest).2]
        simp
      exact absurd hstart (by simp [hbody' _ hmem])

theorem InBlock.unique {lines body body' : List (List UInt8)} {start start' : List UInt8}
    (h : InBlock lines start body) (h' : InBlock lines start' body') :
    start = start' ∧ body = body' := by
  obtain ⟨before, hbefore⟩ := h.split
  obtain ⟨before', hbefore'⟩ := h'.split
  exact beginLine_unique (hbefore.symm.trans hbefore') h.start h'.start (fun x hx => (h.body x hx).1)
    fun x hx => (h'.body x hx).1

theorem Whole.inBlock {lines body : List (List UInt8)} {start line last : List UInt8}
    (h : Whole (lines ++ [line]) start body last) : last = line ∧ InBlock lines start body := by
  obtain ⟨before, hbefore⟩ := h.split
  obtain ⟨hlines, hlast⟩ := List.append_inj' hbefore rfl
  exact ⟨(List.cons.inj hlast).1.symm, ⟨before, hlines⟩, h.start, h.body⟩

theorem Whole.unique {lines body body' : List (List UInt8)} {start start' last last' : List UInt8}
    (h : Whole lines start body last) (h' : Whole lines start' body' last') :
    start = start' ∧ body = body' ∧ last = last' := by
  obtain ⟨before, hbefore⟩ := h.split
  subst hbefore
  obtain ⟨hlast, hblock'⟩ := h'.inBlock
  obtain ⟨hstart, hbody⟩ := InBlock.unique ⟨⟨before, rfl⟩, h.start, h.body⟩ hblock'
  exact ⟨hstart, hbody, hlast.symm⟩

/-- What was captured is a whole block that fits, and nothing else is. -/
theorem Closed.captured_iff {label line : List UInt8} {lines : List (List UInt8)} {res : PemResult}
    (h : Closed label (lines ++ [line]) res) (hcancel : res = .cancelled → line = cancel) :
    res.isError = false ↔ Completes label (lines ++ [line]) := by
  cases res with
  | cancelled =>
    refine iff_of_false (by decide) ?_
    rintro ⟨start, body, last, hwhole, -⟩
    have hend := hwhole.last.1
    rw [hwhole.inBlock.1, hcancel rfl] at hend
    exact absurd hend (by decide)
  | wrongType =>
    refine iff_of_false (by decide) ?_
    rintro ⟨start, body, last, hwhole, hlabel, -⟩
    obtain ⟨start', body', last', hwhole', hnone⟩ := h
    obtain ⟨rfl, -, -⟩ := hwhole.unique hwhole'
    exact hlabel hnone
  | tooLarge =>
    refine iff_of_false (by decide) ?_
    rintro ⟨start, body, last, hwhole, -, hsize⟩
    obtain ⟨start', body', last', hwhole', -, hlarge⟩ := h
    obtain ⟨rfl, rfl, rfl⟩ := hwhole.unique hwhole'
    exact absurd hsize (not_lt.mpr hlarge)
  | captured pem =>
    obtain ⟨start, body, last, hwhole, hlabel, hpem, hsize⟩ := h
    exact iff_of_true rfl ⟨start, body, last, hwhole, hlabel, hpem ▸ hsize⟩

/-- An END line or "cancel" is no BEGIN line. -/
theorem ends_notBegin {label line : List UInt8} {lines : List (List UInt8)} (h : Ends label lines line) :
    startsWith line pemBegin = false := by
  obtain ⟨hend, -⟩ | ⟨rfl, -⟩ := h
  · cases hb : startsWith line pemBegin with
    | false => rfl
    | true =>
      rw [startsWith, List.isPrefixOf_iff_prefix] at hend hb
      exact absurd (List.prefix_of_prefix_length_le hend hb (by decide)) (by decide)
  · decide

/-- What the loop body does with a line that is not blank: it ends the capture, or the locals keep their
meaning. -/
inductive PemStep (label : List UInt8) (s : PemState) (lines : List (List UInt8)) (line : List UInt8) : Prop
  | last {res : PemResult} (hres : pemLine label s line = .inl res) (hends : Ends label lines line)
      (hclosed : Closed label (lines ++ [line]) res) (hcancel : res = .cancelled → line = cancel)
  | next {s' : PemState} (hs' : pemLine label s line = .inr s') (hends : ¬ Ends label lines line)
      (hopen : Open label s' (lines ++ [line]))

theorem pemStep_begin (label : List UInt8) (s : PemState) (lines : List (List UInt8)) {line : List UInt8}
    (hlen : line.length ≤ 95) (hbegin : startsWith line pemBegin = true) : PemStep label s lines line := by
  obtain ⟨s', hs', hwrong, hright⟩ := @pemLine_begin label s line hbegin hlen
  have hblock : InBlock (lines ++ [line]) line [] :=
    ⟨⟨lines, rfl⟩, hbegin, fun x hx => absurd hx List.not_mem_nil⟩
  refine .next hs' (fun h => absurd hbegin (by simp [ends_notBegin h])) ?_
  by_cases hlabel : strstr line label = none
  · exact .wrong hblock hlabel (hwrong hlabel)
  · exact .right hblock hlabel (hright hlabel)

section

variable {body : List (List UInt8)} {start : List UInt8}

/-- Outside of a block only "cancel" is looked at. -/
theorem pemStep_outside (hpem : s.pem = []) (hwrong : s.wrongType = false)
    (hnone : ∀ start body, ¬ InBlock lines start body) (hblank : line ≠ [])
    (hbegin : startsWith line pemBegin = false) : PemStep label s lines line := by
  by_cases hcancel : line = cancel
  · have hres : pemLine label s line = .inl .cancelled := by
      rw [pemLine, if_neg hblank]
      exact if_pos ⟨hpem, hcancel⟩
    exact .last hres (Or.inr ⟨hcancel, fun start body h => absurd h (hnone start body)⟩) trivial
      fun _ => hcancel
  · have hs' : pemLine label s line = .inr { s with seenInput := true } := by
      rw [pemLine, if_neg hblank]
      dsimp only
      rw [if_neg (fun h => hcancel h.2), if_neg (by rw [hbegin]; decide), if_pos ⟨hpem, hwrong⟩]
    refine .next hs' ?_ (.outside hpem hwrong (notInBlock_snoc hnone hbegin))
    rintro (⟨-, start, body, hblock⟩ | ⟨hc, -⟩)
    · exact hnone start body hblock
    · exact hcancel hc

theorem pemStep_wrong (hblock : InBlock lines start body) (hlabel : strstr start label = none) (hs : Wrong s)
    (hblank : line ≠ []) (hbegin : startsWith line pemBegin = false) : PemStep label s lines line := by
  cases hend : startsWith line pemEnd with
  | true =>
    exact .last (hs.close hbegin hend) (Or.inl ⟨hend, start, body, hblock⟩)
      ⟨start, body, line, hblock.close ⟨hend, hbegin⟩, hlabel⟩ fun h => nomatch h
  | false =>
    have hline : pemLine label s line = _ := hs.inner ⟨hblank, hbegin, hend⟩
    by_cases hcancel : line = cancel
    · rw [if_pos hcancel] at hline
      refine .last hline (Or.inr ⟨hcancel, fun start' body' h => ?_⟩) trivial fun _ => hcancel
      rwa [← (hblock.unique h).1]
    · rw [if_neg hcancel] at hline
      refine .next hline ?_ (.wrong (hblock.snoc ⟨hbegin, hend⟩) hlabel hs)
      rintro (⟨he, -⟩ | ⟨hc, -⟩)
      · exact absurd he (by simp [hend])
      · exact hcancel hc

theorem pemStep_right (hblock : InBlock lines start body) (hlabel : strstr start label ≠ none)
    (hs : Right s (storedLines start body)) (hblank : line ≠ []) (hbegin : startsWith line pemBegin = false) :
    PemStep label s lines line := by
  cases hend : startsWith line pemEnd with
  | true =>
    have hwhole := hblock.close ⟨hend, hbegin⟩
    refine .last (hs.close hbegin hend) (Or.inl ⟨hend, start, body, hblock⟩) ?_ ?_
    · split_ifs with hlarge
      · exact ⟨start, body, line, hwhole, hlabel, hlarge⟩
      · exact ⟨start, body, line, hwhole, hlabel, rfl, by omega⟩
    · split_ifs <;> exact fun h => nomatch h
  | false =>
    obtain ⟨s', hs', hright⟩ := @Right.inner label s _ line hs ⟨hblank, hbegin, hend⟩
    refine .next hs' ?_ (.right (hblock.snoc ⟨hbegin, hend⟩) hlabel (by rwa [storedLines_snoc _ _ hblank]))
    rintro (⟨he, -⟩ | ⟨-, hwrong⟩)
    · exact absurd he (by simp [hend])
    · exact hlabel (hwrong start body hblock)

/-- **One line that is not blank.** -/
theorem Open.pemStep (hs : Open label s lines) (hlen : line.length ≤ 95) (hblank : line ≠ []) :
    PemStep label s lines line := by
  cases hbegin : startsWith line pemBegin with
  | true => exact pemStep_begin label s lines hlen hbegin
  | false =>
    cases hs with
    | outside hpem hwrong hnone => exact pemStep_outside hpem hwrong hnone hblank hbegin
    | wrong hblock hlabel hs => exact pemStep_wrong hblock hlabel hs hblank hbegin
    | right hblock hlabel hs => exact pemStep_right hblock hlabel hs hblank hbegin

end

/-- **One line.**  The same with blank lines, which cancel or are left out. -/
theorem open_pemLine {label : List UInt8} {s : PemState} {lines : List (List UInt8)}
    (hs : Open label s lines) {line : List UInt8} (hlen : line.length ≤ 95) :
    match pemLine label s line with
    | .inl res => Closed label (lines ++ [line]) res
    | .inr s' => Open label s' (lines ++ [line]) := by
  by_cases hblank : line = []
  · subst hblank
    rw [pemLine, if_pos rfl]
    have hinner : startsWith [] pemBegin = false ∧ startsWith [] pemEnd = false := by decide
    cases hseen : s.seenInput with
    | false => trivial
    | true =>
      rw [if_neg (by decide)]
      cases hs with
      | outside hpem hwrong hnone => exact .outside hpem hwrong (notInBlock_snoc hnone hinner.1)
      | wrong hblock hlabel hs => exact .wrong (hblock.snoc hinner) hlabel hs
      | right hblock hlabel hs =>
        exact .right (hblock.snoc hinner) hlabel (by rwa [storedLines_blank])
  · cases hs.pemStep hlen hblank with
    | last hres _ hclosed _ =>
      rw [hres]
      exact hclosed
    | next hs' _ hopen =>
      rw [hs']
      exact hopen

/-! ### A run of lines -/

/-- The loop body on one line after another. -/
def pemLines (label : List UInt8) (s : PemState) : List (List UInt8) → PemResult ⊕ PemState
  | [] => .inr s
  | line :: lines =>
    match pemLine label s line with
    | .inl res => .inl res
    | .inr s => pemLines label s lines

theorem pemLines_append (label : List UInt8) (s : PemState) (xs ys : List (List UInt8)) :
    pemLines label s (xs ++ ys) =
      match pemLines label s xs with
      | .inl res => .inl res
      | .inr s => pemLines label s ys := by
  induction xs generalizing s with
  | nil => rfl
  | cons x xs ih =>
    rw [List.cons_append, pemLines, pemLines]
    cases pemLine label s x with
    | inl res => rfl
    | inr s' => exact ih s'

theorem StillOpen.snoc {label : List UInt8} {lines : List (List UInt8)} {line : List UInt8}
    (h : StillOpen label lines) (hline : ¬ Ends label lines line) : StillOpen label (lines ++ [line]) := by
  intro pre x post hsplit
  obtain ⟨rfl, rfl, -⟩ | ⟨post', -, hlines⟩ := split_snoc hsplit
  · exact hline
  · exact h pre x post' hlines

/-- The first line that ends the capture is the only one. -/
theorem StillOpen.unique {label : List UInt8} {pre pre' post post' : List (List UInt8)}
    {line line' : List UInt8} (h : StillOpen label pre) (h' : StillOpen label pre')
    (hline : Ends label pre line) (hline' : Ends label pre' line')
    (hsplit : pre ++ line :: post = pre' ++ line' :: post') : pre = pre' ∧ line = line' := by
  obtain ⟨as, has, hrest⟩ | ⟨as, has, hrest⟩ := List.append_eq_append_iff.mp hsplit
  · cases as with
    | nil => exact ⟨by simpa using has.symm, (List.cons.inj hrest).1⟩
    | cons a as =>
      obtain ⟨rfl, -⟩ := List.cons.inj hrest
      exact absurd hline (h' pre _ as has)
  · cases as with
    | nil => exact ⟨by simpa using has, (List.cons.inj hrest).1.symm⟩
    | cons a as =>
      obtain ⟨rfl, -⟩ := List.cons.inj hrest
      exact absurd hline' (h pre' _ as has)

/-- **A run of lines.**  They leave the capture open, or the first that ends it decides whether a block
was captured. -/
theorem pemLines_cases {label : List UInt8} {s : PemState} {done lines : List (List UInt8)}
    (hs : Open label s done) (hopen : StillOpen label done)
    (hlines : ∀ line ∈ lines, line.length ≤ 95 ∧ line ≠ []) :
    (∃ res pre line post, pemLines label s lines = .inl res ∧ done ++ lines = pre ++ line :: post ∧
      StillOpen label pre ∧ Ends label pre line ∧
      (res.isError = false ↔ Completes label (pre ++ [line]))) ∨
    (∃ s', pemLines label s lines = .inr s' ∧ StillOpen label (done ++ lines)) := by
  induction lines generalizing s done with
  | nil => exact Or.inr ⟨s, rfl, by rwa [List.append_nil]⟩
  | cons line lines ih =>
    obtain ⟨hlen, hblank⟩ := hlines line List.mem_cons_self
    rw [pemLines]
    cases hs.pemStep hlen hblank with
    | last hres hends hclosed hcancel =>
      rw [hres]
      exact Or.inl ⟨_, done, line, lines, rfl, rfl, hopen, hends, hclosed.captured_iff hcancel⟩
    | next hs' hends hs1 =>
      have happ : done ++ line :: lines = (done ++ [line]) ++ lines := by simp
      rw [hs', happ]
      exact ih hs1 (hopen.snoc hends) fun x hx => hlines x (List.mem_cons_of_mem _ hx)

end IotcRa8p1.App.Cli
