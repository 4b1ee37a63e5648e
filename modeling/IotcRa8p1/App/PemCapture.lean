import IotcRa8p1.App.PemLines

/-!
# What a pasted PEM block becomes

A paste is some lines before the block, its lines, and whatever follows the last dash.  Each line has
one or more line-ending characters, CR or LF in any mix, so a blank line is one more of them.

`pemRunFrom` is the capture from the middle of a line; on printable characters it follows `scanText`,
which knows nothing of endings and latches.  `readPem_iff` then says which pastes are captured as they
are: those of lines of at most 95 characters whose END line closes where it ends, unless the block is
refused, or the lines before it are taken for a block already.
-/

namespace IotcRa8p1.App.Cli

open CString

/-! ### The loop without its fuel -/

/-- A line takes at least one character. -/
theorem readLineLoop_rest {size : ℕ} {echo : Bool} {buf : List UInt8} {latch : Bool}
    {input : List UInt8} {r : ReadResult (List UInt8)}
    (h : readLineLoop size echo buf latch input = some r) : r.rest.length < input.length := by
  induction input generalizing buf latch with
  | nil => contradiction
  | cons c rest ih =>
    rw [readLineLoop] at h
    rw [List.length_cons]
    split_ifs at h with h1 h2 h3 h4 h5
    · exact (ih h).trans (Nat.lt_succ_self _)
    · obtain rfl := Option.some.inj h
      exact Nat.lt_succ_self _
    · exact (ih h).trans (Nat.lt_succ_self _)
    · obtain rfl := Option.some.inj h
      exact Nat.lt_succ_self _
    · exact (ih h).trans (Nat.lt_succ_self _)
    · exact (ih h).trans (Nat.lt_succ_self _)

theorem readPemLoop_fuel {label : List UInt8} {s : PemState} {latch : Bool} {input : List UInt8}
    {fuel : ℕ} (h : input.length < fuel) :
    readPemLoop label fuel s latch input = readPemLoop label (input.length + 1) s latch input := by
  induction fuel using Nat.strong_induction_on generalizing s latch input with
  | _ fuel ih =>
    cases fuel with
    | zero => exact absurd h (Nat.not_lt_zero _)
    | succ fuel =>
      rw [readPemLoop, readPemLoop]
      cases hr : prvReadLine 96 false latch input with
      | none => rfl
      | some r =>
        have hrest := readLineLoop_rest hr
        dsimp only
        cases pemLine label s r.result with
        | inl res => rfl
        | inr s' =>
          dsimp only
          rw [ih fuel (Nat.lt_succ_self _) (by omega), ih input.length (by omega) hrest]

/-- The capture when `buf` has been read of the current line. -/
def pemRunFrom (label : List UInt8) (s : PemState) (buf : List UInt8) (latch : Bool)
    (input : List UInt8) : Option (ReadResult PemResult) :=
  match readLineLoop 96 false buf latch input with
  | none => none
  | some r =>
    match pemLine label s r.result with
    | .inl res => some ⟨res, r.latch, r.rest⟩
    | .inr s => readPemLoop label (r.rest.length + 1) s r.latch r.rest

theorem readPemLoop_eq (label : List UInt8) (s : PemState) (latch : Bool) (input : List UInt8) :
    readPemLoop label (input.length + 1) s latch input = pemRunFrom label s [] latch input := by
  rw [readPemLoop, pemRunFrom]
  change (match readLineLoop 96 false [] latch input with | none => _ | some r => _) = _
  cases hr : readLineLoop 96 false [] latch input with
  | none => rfl
  | some r =>
    dsimp only
    cases pemLine label s r.result with
    | inl res => rfl
    | inr s' => exact readPemLoop_fuel (readLineLoop_rest hr)

/-- Go on behind a line that was handed over. -/
def pemNext (label : List UInt8) (latch : Bool) (rest : List UInt8) :
    PemResult ⊕ PemState → Option (ReadResult PemResult)
  | .inl res => some ⟨res, latch, rest⟩
  | .inr s => pemRunFrom label s [] latch rest

/-- A line is handed over to the loop body. -/
theorem pemRunFrom_handed {label : List UInt8} {s : PemState} {buf : List UInt8} {latch : Bool}
    {input : List UInt8} {r : ReadResult (List UInt8)}
    (h : readLineLoop 96 false buf latch input = some r) :
    pemRunFrom label s buf latch input = pemNext label r.latch r.rest (pemLine label s r.result) := by
  rw [pemRunFrom, h]
  dsimp only
  cases pemLine label s r.result with
  | inl res => rfl
  | inr s' => exact readPemLoop_eq label s' r.latch r.rest

theorem pemRunFrom_congr {label : List UInt8} {s : PemState} {buf buf' : List UInt8}
    {latch latch' : Bool} {input input' : List UInt8}
    (h : readLineLoop 96 false buf latch input = readLineLoop 96 false buf' latch' input') :
    pemRunFrom label s buf latch input = pemRunFrom label s buf' latch' input' := by
  rw [pemRunFrom, pemRunFrom, h]

/-! ### Printable characters -/

theorem printable_ne {c : UInt8} (h : printable c = true) :
    c ≠ lf ∧ c ≠ cr ∧ c ≠ 0x08 ∧ c ≠ 0x7F := by
  refine ⟨?_, ?_, ?_, ?_⟩ <;>
  · rintro rfl
    revert h
    decide

/-- One printable character: it is dropped from a full line, or ends the line, or goes into it. -/
theorem readLineLoop_printable {buf : List UInt8} {latch : Bool} {c : UInt8} {rest : List UInt8}
    (hc : printable c = true) :
    readLineLoop 96 false buf latch (c :: rest) =
      if buf.length < 95 then
        if endSeen (buf ++ [c]) = true then some ⟨buf ++ [c], false, rest⟩
        else readLineLoop 96 false (buf ++ [c]) false rest
      else readLineLoop 96 false buf false rest := by
  obtain ⟨h1, h2, h3, h4⟩ := printable_ne hc
  have hlatch : (c == cr) = false := by simpa using h2
  rw [readLineLoop, if_neg (by simp [h1]), if_neg (by simp [h1, h2]), if_neg (by simp [h3, h4])]
  simp only [hc, hlatch, true_and]

/-- A run of printable characters: the capture ends inside it with `rest` unread, or goes on with a
line begun. -/
def scanText (label : List UInt8) :
    PemState → List UInt8 → List UInt8 → (PemResult × List UInt8) ⊕ (PemState × List UInt8)
  | s, buf, [] => .inr (s, buf)
  | s, buf, c :: rest =>
    if buf.length < 95 then
      if endSeen (buf ++ [c]) = true then
        match pemLine label s (buf ++ [c]) with
        | .inl res => .inl (res, rest)
        | .inr s => scanText label s [] rest
      else scanText label s (buf ++ [c]) rest
    else scanText label s buf rest

/-- The lines that the reader hands over for the characters of one typed line behind `buf`: it cuts behind
an END line that is complete, and drops what is behind the 95th character. -/
def handedOver : List UInt8 → List UInt8 → List (List UInt8)
  | buf, [] => if buf = [] then [] else [buf]
  | buf, c :: rest =>
    if buf.length < 95 then
      if endSeen (buf ++ [c]) = true then (buf ++ [c]) :: handedOver [] rest
      else handedOver (buf ++ [c]) rest
    else handedOver buf rest

theorem handedOver_line (buf text : List UInt8) (hbuf : buf.length ≤ 95) :
    ∀ line ∈ handedOver buf text, line.length ≤ 95 ∧ line ≠ [] := by
  induction text generalizing buf with
  | nil =>
    intro line hline
    rw [handedOver] at hline
    split_ifs at hline with hne
    · contradiction
    · rw [List.mem_singleton.mp hline]
      exact ⟨hbuf, hne⟩
  | cons c rest ih =>
    have hone : (buf ++ [c]).length = buf.length + 1 := by simp
    intro line hline
    rw [handedOver] at hline
    split_ifs at hline with hlen hend
    · rcases List.mem_cons.mp hline with rfl | hline
      · exact ⟨by omega, by simp⟩
      · exact ih [] (Nat.zero_le 95) line hline
    · exact ih _ (by omega) line hline
    · exact ih _ hbuf line hline

theorem pemRunFrom_text {label : List UInt8} {s : PemState} {buf : List UInt8} {latch : Bool}
    {text : List UInt8} (htext : ∀ c ∈ text, printable c = true) (hne : text ≠ [])
    (tail : List UInt8) :
    pemRunFrom label s buf latch (text ++ tail) =
      match scanText label s buf text with
      | .inl (res, rest) => some ⟨res, false, rest ++ tail⟩
      | .inr (s, buf) => pemRunFrom label s buf false tail := by
  induction text generalizing s buf latch with
  | nil => exact absurd rfl hne
  | cons c rest ih =>
    have hc := htext c List.mem_cons_self
    -- the characters behind the first, from whatever the first leaves
    have hrest (s' : PemState) (buf' : List UInt8) :
        pemRunFrom label s' buf' false (rest ++ tail) =
          match scanText label s' buf' rest with
          | .inl (res, rest) => some ⟨res, false, rest ++ tail⟩
          | .inr (s, buf) => pemRunFrom label s buf false tail := by
      cases rest with
      | nil => rfl
      | cons d rest => exact ih (fun x hx => htext x (List.mem_cons_of_mem _ hx)) (by simp)
    rw [List.cons_append, scanText]
    split_ifs with hlen hend
    · have hread : readLineLoop 96 false buf latch (c :: (rest ++ tail)) =
          some ⟨buf ++ [c], false, rest ++ tail⟩ := by
        rw [readLineLoop_printable hc, if_pos hlen, if_pos hend]
      rw [pemRunFrom_handed hread]
      dsimp only
      cases pemLine label s (buf ++ [c]) with
      | inl res => rfl
      | inr s' => exact hrest s' []
    · rw [← hrest]
      exact pemRunFrom_congr (by rw [readLineLoop_printable hc, if_pos hlen, if_neg hend])
    · rw [← hrest]
      exact pemRunFrom_congr (by rw [readLineLoop_printable hc, if_neg hlen])

/-! ### Line endings -/

def isNewline (c : UInt8) : Bool := c == cr || c == lf

theorem readLineLoop_newline {buf : List UInt8} {c : UInt8} {rest : List UInt8}
    (hc : isNewline c = true) :
    readLineLoop 96 false buf false (c :: rest) = some ⟨buf, c == cr, rest⟩ := by
  have hor : c = cr ∨ c = lf := by simpa [isNewline] using hc
  rw [readLineLoop, if_neg (by simp), if_pos hor]

/-- Once something was read, line endings are skipped, whatever the latch. -/
theorem pemRunFrom_newlines {label : List UInt8} {s : PemState} (hseen : s.seenInput = true)
    {ending : List UInt8} (hending : ∀ c ∈ ending, isNewline c = true) (latch : Bool)
    (tail : List UInt8) :
    ∃ latch', pemRunFrom label s [] latch (ending ++ tail) =
      pemRunFrom label s [] latch' tail := by
  induction ending generalizing latch with
  | nil => exact ⟨latch, rfl⟩
  | cons c ending ih =>
    have hc := hending c List.mem_cons_self
    have ih' := ih fun x hx => hending x (List.mem_cons_of_mem _ hx)
    have hor : c = cr ∨ c = lf := by simpa [isNewline] using hc
    by_cases hdrop : c = lf ∧ latch = true
    · obtain ⟨latch', h⟩ := ih' (c == cr)
      refine ⟨latch', ?_⟩
      rw [← h, List.cons_append]
      exact pemRunFrom_congr (by rw [readLineLoop, if_pos hdrop])
    · obtain ⟨latch', h⟩ := ih' (c == cr)
      refine ⟨latch', ?_⟩
      have hread : readLineLoop 96 false [] latch (c :: (ending ++ tail)) =
          some ⟨[], c == cr, ending ++ tail⟩ := by
        rw [readLineLoop, if_neg hdrop, if_pos hor]
      rw [List.cons_append, pemRunFrom_handed hread, ← h]
      simp [pemLine, pemNext, hseen]

/-! ### Whole lines -/

/-- A line as it is typed or pasted: its characters and the line endings behind them. -/
structure TypedLine where
  text : List UInt8
  ending : List UInt8
  printable : ∀ c ∈ text, printable c = true
  nonblank : text ≠ []
  ended : ending ≠ []
  newlines : ∀ c ∈ ending, isNewline c = true

def TypedLine.chars (l : TypedLine) : List UInt8 := l.text ++ l.ending

/-- A typed line without its endings: what the capture makes of it. -/
def scanLine (label : List UInt8) (s : PemState) (text : List UInt8) : PemResult ⊕ PemState :=
  match scanText label s [] text with
  | .inl (res, _) => .inl res
  | .inr (s, buf) => pemLine label s buf

def scanLines (label : List UInt8) (s : PemState) : List TypedLine → PemResult ⊕ PemState
  | [] => .inr s
  | l :: ls =>
    match scanLine label s l.text with
    | .inl res => .inl res
    | .inr s => scanLines label s ls

/-- Only a line with nothing in it leaves `seen_input` as it is. -/
theorem pemStore_seen {s s' : PemState} {line : List UInt8} (h : pemStore s line = .inr s') :
    s'.seenInput = s.seenInput := by
  dsimp only [pemStore] at h
  split_ifs at h <;> · obtain rfl := Sum.inr.inj h; rfl

theorem pemLine_seen {label : List UInt8} {s s' : PemState} {line : List UInt8}
    (h : pemLine label s line = .inr s') (hs : line ≠ [] ∨ s.seenInput = true) :
    s'.seenInput = true := by
  by_cases hline : line = []
  · have hseen := hs.resolve_left (not_not.mpr hline)
    rw [pemLine, if_pos hline, if_neg (by simp [hseen])] at h
    exact Sum.inr.inj h ▸ hseen
  · dsimp only [pemLine] at h
    rw [if_neg hline] at h
    split_ifs at h
    · exact pemStore_seen h
    · exact Sum.inr.inj h ▸ rfl
    · exact pemStore_seen h

/-- A run of characters leaves a line begun, or something was read before. -/
theorem scanText_seen {label : List UInt8} {s s' : PemState} {buf buf' text : List UInt8}
    (h : scanText label s buf text = .inr (s', buf'))
    (hs : buf ≠ [] ∨ text ≠ [] ∨ s.seenInput = true) : buf' ≠ [] ∨ s'.seenInput = true := by
  induction text generalizing s buf with
  | nil =>
    obtain ⟨rfl, rfl⟩ := Prod.mk.inj (Sum.inr.inj h)
    simpa using hs
  | cons c rest ih =>
    rw [scanText] at h
    split_ifs at h with hlen hend
    · cases hl : pemLine label s (buf ++ [c]) with
      | inl res =>
        rw [hl] at h
        contradiction
      | inr s1 =>
        rw [hl] at h
        exact ih h (Or.inr (Or.inr (pemLine_seen hl (Or.inl (by simp)))))
    · exact ih h (Or.inl (by simp))
    · refine ih h (Or.inl fun hbuf => hlen ?_)
      rw [hbuf]
      decide

/-- The scan is the loop body on the lines handed over. -/
theorem scanText_handedOver {label : List UInt8} {s : PemState} {buf text : List UInt8}
    (hs : buf ≠ [] ∨ text ≠ [] ∨ s.seenInput = true) :
    (match scanText label s buf text with
      | .inl (res, _) => .inl res
      | .inr (s, buf) => pemLine label s buf) = pemLines label s (handedOver buf text) := by
  induction text generalizing s buf with
  | nil =>
    rw [scanText, handedOver]
    dsimp only
    split_ifs with hbuf
    · have hseen : s.seenInput = true := by simpa [hbuf] using hs
      rw [hbuf, pemLine, if_pos rfl, if_neg (by simp [hseen]), pemLines]
    · rw [pemLines]
      cases pemLine label s buf with
      | inl res => rfl
      | inr s' => rfl
  | cons c rest ih =>
    rw [scanText, handedOver]
    split_ifs with hlen hend
    · rw [pemLines]
      cases hl : pemLine label s (buf ++ [c]) with
      | inl res => rfl
      | inr s1 => exact ih (Or.inr (Or.inr (pemLine_seen hl (Or.inl (by simp)))))
    · exact ih (Or.inl (by simp))
    · refine ih (Or.inl fun hbuf => hlen ?_)
      rw [hbuf]
      decide

theorem scanLines_handedOver (label : List UInt8) (s : PemState) (ls : List TypedLine) :
    scanLines label s ls = pemLines label s (ls.flatMap fun l => handedOver [] l.text) := by
  induction ls generalizing s with
  | nil => rfl
  | cons l ls ih =>
    have hline : scanLine label s l.text = pemLines label s (handedOver [] l.text) :=
      scanText_handedOver (Or.inr (Or.inl l.nonblank))
    rw [List.flatMap_cons, pemLines_append, scanLines, hline]
    cases pemLines label s (handedOver [] l.text) with
    | inl res => rfl
    | inr s' => exact ih s'

/-- **One typed line.**  The capture ends in it, before the characters behind the line, or goes on with
those from the state the scan gives. -/
theorem pemRunFrom_line {label : List UInt8} (s : PemState) (latch : Bool) (l : TypedLine)
    (tail : List UInt8) :
    (∃ res latch' rest, scanLine label s l.text = .inl res ∧
      pemRunFrom label s [] latch (l.chars ++ tail) = some ⟨res, latch', rest ++ tail⟩) ∨
    (∃ s' latch', scanLine label s l.text = .inr s' ∧
      pemRunFrom label s [] latch (l.chars ++ tail) = pemRunFrom label s' [] latch' tail) := by
  rw [TypedLine.chars, List.append_assoc, pemRunFrom_text l.printable l.nonblank, scanLine]
  cases ht : scanText label s [] l.text with
  | inl r =>
    obtain ⟨res, rest⟩ := r
    exact Or.inl ⟨res, false, rest ++ l.ending, rfl, by simp⟩
  | inr r =>
    obtain ⟨s1, buf⟩ := r
    have hseen := scanText_seen ht (Or.inr (Or.inl l.nonblank))
    obtain ⟨c, ending, hending⟩ := List.exists_cons_of_ne_nil l.ended
    have hnl := l.newlines
    rw [hending] at hnl ⊢
    dsimp only
    rw [List.cons_append, pemRunFrom_handed (readLineLoop_newline (hnl c List.mem_cons_self))]
    cases hl : pemLine label s1 buf with
    | inl res => exact Or.inl ⟨res, _, ending, rfl, rfl⟩
    | inr s2 =>
      obtain ⟨latch', hrun⟩ := pemRunFrom_newlines
        (pemLine_seen hl hseen) (fun x hx => hnl x (List.mem_cons_of_mem _ hx)) (c == cr) tail
      exact Or.inr ⟨s2, latch', rfl, hrun⟩

theorem pemRunFrom_lines {label : List UInt8} (s : PemState) (latch : Bool) (ls : List TypedLine)
    (tail : List UInt8) :
    (∃ res latch' rest, scanLines label s ls = .inl res ∧
      pemRunFrom label s [] latch (ls.flatMap TypedLine.chars ++ tail) =
        some ⟨res, latch', rest ++ tail⟩) ∨
    (∃ s' latch', scanLines label s ls = .inr s' ∧
      pemRunFrom label s [] latch (ls.flatMap TypedLine.chars ++ tail) =
        pemRunFrom label s' [] latch' tail) := by
  induction ls generalizing s latch with
  | nil => exact Or.inr ⟨s, latch, rfl, rfl⟩
  | cons l ls ih =>
    rw [List.flatMap_cons, List.append_assoc, scanLines]
    obtain ⟨res, latch', rest, hl, hrun⟩ | ⟨s', latch', hl, hrun⟩ :=
      pemRunFrom_line s latch l (ls.flatMap TypedLine.chars ++ tail)
    · rw [hl, hrun]
      exact Or.inl ⟨res, latch', rest ++ ls.flatMap TypedLine.chars, rfl, by simp⟩
    · rw [hl, hrun]
      exact ih s' latch'

/-! ### Where the END line ends -/

/-- Where the reader ends a line that starts as an END line: at the first place it reads complete, else
when the line is full. -/
def endCut (e : List UInt8) : ℕ := ((List.range 96).find? fun k => endSeen (e.take k)).getD 95

def endChunk (e : List UInt8) : List UInt8 := e.take (endCut e)

/-- The END line closes where it ends, and nowhere before. -/
structure EndCloses (e : List UInt8) : Prop where
  long : 16 ≤ e.length
  short : e.length ≤ 95
  first : ∀ k, 16 ≤ k → k < e.length → dashes.isSuffixOf (e.take k) = false

theorem endCut_cases (e : List UInt8) :
    (endCut e ≤ 95 ∧ endSeen (endChunk e) = true ∧
      ∀ j, j < endCut e → endSeen (e.take j) = false) ∨
    (endCut e = 95 ∧ endSeen (endChunk e) = false ∧ ∀ j, j ≤ 95 → endSeen (e.take j) = false) := by
  cases h : (List.range 96).find? fun k => endSeen (e.take k) with
  | some k =>
    obtain ⟨hk, hmem, hfirst⟩ := List.find?_range_eq_some.mp h
    have hcut : endCut e = k := by rw [endCut, h]; rfl
    rw [endChunk, hcut]
    have hlt := List.mem_range.mp hmem
    exact Or.inl ⟨by omega, hk, fun j hj => by simpa using hfirst j hj⟩
  | none =>
    have hall := List.find?_eq_none.mp h
    have hcut : endCut e = 95 := by rw [endCut, h]; rfl
    have hfalse : ∀ j, j ≤ 95 → endSeen (e.take j) = false := fun j hj => by
      simpa using hall j (List.mem_range.mpr (by omega))
    rw [endChunk, hcut]
    exact Or.inr ⟨rfl, hfalse 95 le_rfl, hfalse⟩

theorem endSeen_take {e : List UInt8} {k : ℕ} (hk : k ≤ e.length)
    (hend : startsWith e pemEnd = true) :
    endSeen (e.take k) = true ↔ 16 ≤ k ∧ dashes.isSuffixOf (e.take k) = true := by
  have hstarts : 16 ≤ k → startsWith (e.take k) pemEnd = true := fun h16 => by
    rw [startsWith, List.isPrefixOf_iff_prefix] at hend ⊢
    exact List.prefix_take_iff.mpr ⟨hend, le_trans (by decide) h16⟩
  simp only [endSeen, Bool.and_eq_true, decide_eq_true_eq, List.length_take, Nat.min_eq_left hk]
  constructor
  · rintro ⟨⟨h16, -⟩, hd⟩
    exact ⟨h16, hd⟩
  · rintro ⟨h16, hd⟩
    exact ⟨⟨h16, hstarts h16⟩, hd⟩

/-- The reader hands over a closed END line whole, and no other. -/
theorem endCloses_iff {e : List UInt8} (hend : startsWith e pemEnd = true)
    (hdash : dashes.isSuffixOf e = true) :
    EndCloses e ↔ endSeen (endChunk e) = true ∧ endChunk e = e := by
  constructor
  · intro h
    have hwhole : endSeen (e.take e.length) = true :=
      (endSeen_take le_rfl hend).mpr ⟨h.long, by rwa [List.take_length]⟩
    obtain ⟨-, hseen, hfirst⟩ | ⟨-, -, hnone⟩ := endCut_cases e
    · refine ⟨hseen, List.take_of_length_le (not_lt.mp fun hlt => ?_)⟩
      obtain ⟨h16, hd⟩ := (endSeen_take hlt.le hend).mp hseen
      exact absurd hd (by rw [h.first _ h16 hlt]; decide)
    · exact absurd hwhole (by rw [hnone _ h.short]; decide)
  · rintro ⟨hseen, hwhole⟩
    have hlen : e.length ≤ endCut e := by
      have := congrArg List.length hwhole
      rw [endChunk, List.length_take] at this
      omega
    have h16 : 16 ≤ e.length := by
      rw [hwhole, endSeen] at hseen
      simp only [Bool.and_eq_true, decide_eq_true_eq] at hseen
      exact hseen.1.1
    obtain ⟨hcut, -, hfirst⟩ | ⟨-, hno, -⟩ := endCut_cases e
    · refine ⟨h16, hlen.trans hcut, fun k hk hlt => ?_⟩
      have hnot := hfirst k (by omega)
      cases hd : dashes.isSuffixOf (e.take k) with
      | false => rfl
      | true => exact absurd ((endSeen_take hlt.le hend).mpr ⟨hk, hd⟩) (by rw [hnot]; decide)
    · exact absurd hseen (by rw [hno]; decide)

/-- Characters that nowhere complete an END line fill the line up. -/
theorem scanText_quiet {label : List UInt8} {s : PemState} {buf text : List UInt8}
    (hbuf : buf.length ≤ 95)
    (h : ∀ k, buf.length < k → k ≤ 95 → endSeen ((buf ++ text).take k) = false) :
    scanText label s buf text = .inr (s, (buf ++ text).take 95) := by
  induction text generalizing buf with
  | nil => rw [List.append_nil, List.take_of_length_le hbuf, scanText]
  | cons c rest ih =>
    have happ : buf ++ c :: rest = (buf ++ [c]) ++ rest := by simp
    rw [scanText]
    by_cases hlen : buf.length < 95
    · have hc : endSeen (buf ++ [c]) = false := by
        have := h (buf.length + 1) (by omega) (by omega)
        rwa [happ, List.take_left' (by simp)] at this
      rw [if_pos hlen, if_neg (by simp [hc]), happ]
      refine ih (by rw [List.length_append, List.length_singleton]; omega) fun k hk hk95 => ?_
      rw [← happ]
      exact h k (by rw [List.length_append] at hk; omega) hk95
    · have hfull : buf.length = 95 := by omega
      rw [if_neg hlen, ih hbuf fun k hk hk95 => by omega, List.take_left' hfull,
        List.take_left' hfull]

/-- The first place where an END line is complete ends the line there. -/
theorem scanText_cut {label : List UInt8} {s : PemState} (buf text : List UInt8) {k : ℕ}
    (hk : buf.length < k) (hk95 : k ≤ 95) (hlen : k ≤ (buf ++ text).length)
    (hend : endSeen ((buf ++ text).take k) = true)
    (hfirst : ∀ j, buf.length < j → j < k → endSeen ((buf ++ text).take j) = false)
    {res : PemResult} (hline : pemLine label s ((buf ++ text).take k) = .inl res) :
    scanText label s buf text = .inl (res, (buf ++ text).drop k) := by
  induction text generalizing buf with
  | nil =>
    rw [List.append_nil] at hlen
    omega
  | cons c rest ih =>
    have happ : buf ++ c :: rest = (buf ++ [c]) ++ rest := by simp
    have hone : (buf ++ [c]).length = buf.length + 1 := by simp
    rw [happ] at hlen hend hfirst hline ⊢
    rw [scanText, if_pos (by omega)]
    by_cases hkc : k = buf.length + 1
    · rw [List.take_left' (by omega)] at hend hline
      rw [if_pos hend, hline, List.drop_left' (by omega)]
    · have hc : endSeen (buf ++ [c]) = false := by
        have := hfirst (buf.length + 1) (by omega) (by omega)
        rwa [List.take_left' (by omega)] at this
      rw [if_neg (by simp [hc])]
      exact ih _ (by omega) hlen hend (fun j hj hjk => hfirst j (by omega) hjk) hline

variable {label : List UInt8} {s : PemState} {lines : List (List UInt8)} {line : List UInt8}

/-! ### Pastes -/

/-- A pasted block, the lines before it, and the characters that come after its last dash (none, or a
line ending first). -/
structure Paste where
  before : List TypedLine
  beginLine : TypedLine
  body : List TypedLine
  endLine : List UInt8
  after : List UInt8
  notBegin : ∀ l ∈ before, startsWith l.text pemBegin = false
  begins : startsWith beginLine.text pemBegin = true
  inner : ∀ l ∈ body, startsWith l.text pemBegin = false ∧ startsWith l.text pemEnd = false
  ends : startsWith endLine pemEnd = true
  closes : dashes.isSuffixOf endLine = true
  printable : ∀ c ∈ endLine, printable c = true
  newline : ∀ c ∈ after.head?, isNewline c = true

def Paste.chars (p : Paste) : List UInt8 :=
  p.before.flatMap TypedLine.chars ++
    (p.beginLine.chars ++ (p.body.flatMap TypedLine.chars ++ (p.endLine ++ p.after)))

/-- The lines of the block. -/
def Paste.blockLines (p : Paste) : List (List UInt8) :=
  p.beginLine.text :: p.body.map TypedLine.text ++ [p.endLine]

/-- The same as the reader hands them over. -/
def Paste.handed (p : Paste) : List (List UInt8) :=
  (p.beginLine.text :: p.body.map TypedLine.text).map (List.take 95) ++ [endChunk p.endLine]

/-- A run returns an error, or the lines of the block and no character behind its last dash. -/
def Paste.FaithfulRun (p : Paste) (run : Option (ReadResult PemResult)) : Prop :=
  ∃ r, run = some r ∧
    (r.result.isError = true ∨
      (r.result = .captured (joinLines p.blockLines) ∧ r.rest = p.after))

/-- The capture does so. -/
def Faithful (label : List UInt8) (latch : Bool) (p : Paste) : Prop :=
  p.FaithfulRun (prvReadPem label latch p.chars)

/-- The END line is read: it is complete somewhere in 95 characters, or a line ending follows. -/
def Paste.EndHanded (p : Paste) : Prop := p.after ≠ [] ∨ endSeen (endChunk p.endLine) = true

/-- What it takes of the block: it is of the wrong type and read to its END line or to a line "cancel",
or too large and read to its END line, or has lines of at most 95 characters and an END line that
closes where it ends. -/
def BlockOk (label : List UInt8) (p : Paste) : Prop :=
  if strstr (p.beginLine.text.take 95) label = none then
    (∃ l ∈ p.body, l.text = cancel) ∨ p.EndHanded
  else if iotcConfigPemMax ≤ (joinLines p.handed).length + 1 then p.EndHanded
  else (∀ l ∈ p.beginLine :: p.body, l.text.length ≤ 95) ∧ EndCloses p.endLine

/-- The lines before the block as the reader hands them over. -/
def Paste.earlier (p : Paste) : List (List UInt8) := p.before.flatMap fun l => handedOver [] l.text

/-- And the lines before it are not taken for a block already: the first of them that ends the capture
does not complete one, and where none does the block is as above. -/
def PasteOk (label : List UInt8) (p : Paste) : Prop :=
  (∀ pre line post, p.earlier = pre ++ line :: post → StillOpen label pre →
      Ends label pre line → ¬ Completes label (pre ++ [line])) ∧
    (StillOpen label p.earlier → BlockOk label p)

theorem startsWith_take {t q : List UInt8} {n : ℕ} (h : startsWith t q = false) :
    startsWith (t.take n) q = false := by
  cases ht : startsWith (t.take n) q with
  | false => rfl
  | true =>
    rw [startsWith, List.isPrefixOf_iff_prefix] at ht
    have htrue := List.isPrefixOf_iff_prefix.mpr (ht.trans (List.take_prefix n t))
    exact absurd h (by rw [startsWith, htrue]; decide)

theorem endSeen_notEnd {t : List UInt8} (h : startsWith t pemEnd = false) : endSeen t = false := by
  simp [endSeen, h]

/-- A line that is no END line is handed over up to its 95th character. -/
theorem scanLine_notEnd {t : List UInt8} (h : startsWith t pemEnd = false) :
    scanLine label s t = pemLine label s (t.take 95) := by
  have hquiet : scanText label s [] t = .inr (s, t.take 95) :=
    scanText_quiet (Nat.zero_le 95) fun k _ _ => endSeen_notEnd (startsWith_take h)
  rw [scanLine, hquiet]

theorem inner_take {l : TypedLine} (h : startsWith l.text pemBegin = false ∧
    startsWith l.text pemEnd = false) : Inner (l.text.take 95) := by
  refine ⟨fun hnil => ?_, startsWith_take h.1, startsWith_take h.2⟩
  rcases List.take_eq_nil_iff.mp hnil with h0 | h0
  · exact absurd h0 (by decide)
  · exact l.nonblank h0

theorem scanLines_right (label : List UInt8) {body : List TypedLine} (h : Right s lines)
    (hbody : ∀ l ∈ body, startsWith l.text pemBegin = false ∧ startsWith l.text pemEnd = false) :
    ∃ s', scanLines label s body = .inr s' ∧
      Right s' (lines ++ (body.map TypedLine.text).map (List.take 95)) := by
  induction body generalizing s lines with
  | nil => exact ⟨s, rfl, by simpa using h⟩
  | cons l body ih =>
    have hl := hbody l List.mem_cons_self
    obtain ⟨s1, hline, h1⟩ := h.inner (inner_take hl)
    obtain ⟨s2, hrest, h2⟩ := ih h1 fun x hx => hbody x (List.mem_cons_of_mem _ hx)
    refine ⟨s2, ?_, by simpa using h2⟩
    rw [scanLines, scanLine_notEnd hl.2, hline]
    exact hrest

theorem take_eq_cancel {t : List UInt8} : t.take 95 = cancel ↔ t = cancel := by
  constructor
  · intro h
    have hlen := congrArg List.length h
    rw [List.length_take, show cancel.length = 6 from rfl] at hlen
    rwa [List.take_of_length_le (by omega)] at h
  · rintro rfl
    decide

theorem scanLines_wrong (label : List UInt8) {body : List TypedLine} (h : Wrong s)
    (hbody : ∀ l ∈ body, startsWith l.text pemBegin = false ∧ startsWith l.text pemEnd = false) :
    (scanLines label s body = .inl .cancelled ∧ ∃ l ∈ body, l.text = cancel) ∨
      (scanLines label s body = .inr s ∧ ¬ ∃ l ∈ body, l.text = cancel) := by
  induction body with
  | nil => exact Or.inr ⟨rfl, by simp⟩
  | cons l body ih =>
    have hl := hbody l List.mem_cons_self
    rw [scanLines, scanLine_notEnd hl.2, h.inner (inner_take hl)]
    by_cases hc : l.text = cancel
    · rw [if_pos (take_eq_cancel.mpr hc)]
      exact Or.inl ⟨rfl, l, List.mem_cons_self, hc⟩
    · rw [if_neg fun ht => hc (take_eq_cancel.mp ht)]
      obtain ⟨hscan, x, hx, hxc⟩ | ⟨hscan, hno⟩ :=
        ih fun x hx => hbody x (List.mem_cons_of_mem _ hx)
      · exact Or.inl ⟨hscan, x, List.mem_cons_of_mem _ hx, hxc⟩
      · refine Or.inr ⟨hscan, ?_⟩
        rintro ⟨x, hx, hxc⟩
        rcases List.mem_cons.mp hx with rfl | hx
        · exact hc hxc
        · exact hno ⟨x, hx, hxc⟩

/-- The END line of a block ends the capture where it is complete, else at the line ending behind it. -/
theorem pemRunFrom_end (p : Paste) {res : PemResult} (latch : Bool)
    (h : pemLine label s (endChunk p.endLine) = .inl res) :
    (endSeen (endChunk p.endLine) = true ∧
      pemRunFrom label s [] latch (p.endLine ++ p.after) =
        some ⟨res, false, p.endLine.drop (endCut p.endLine) ++ p.after⟩) ∨
    (endSeen (endChunk p.endLine) = false ∧ p.after = [] ∧
      pemRunFrom label s [] latch (p.endLine ++ p.after) = none) ∨
    (endSeen (endChunk p.endLine) = false ∧ ∃ c rest, p.after = c :: rest ∧
      pemRunFrom label s [] latch (p.endLine ++ p.after) = some ⟨res, c == cr, rest⟩) := by
  have hne : p.endLine ≠ [] := by
    intro hnil
    have hends := p.ends
    rw [hnil] at hends
    exact absurd hends (by decide)
  rw [pemRunFrom_text p.printable hne]
  obtain ⟨h95, hseen, hfirst⟩ | ⟨hcut, hseen, hnone⟩ := endCut_cases p.endLine
  · refine Or.inl ⟨hseen, ?_⟩
    by_cases hlen : endCut p.endLine ≤ p.endLine.length
    · have h16 : 0 < endCut p.endLine := ((endSeen_take hlen p.ends).mp hseen).1.trans_lt' (by decide)
      have hcut : scanText label s [] p.endLine = .inl (res, p.endLine.drop (endCut p.endLine)) :=
        scanText_cut [] p.endLine h16 h95 hlen hseen (fun j _ hj => hfirst j hj) h
      rw [hcut]
    · -- the whole line would be complete before
      have hwhole : endSeen (p.endLine.take p.endLine.length) = true := by
        rw [List.take_length]
        rwa [endChunk, List.take_of_length_le (by omega)] at hseen
      exact absurd hwhole (by rw [hfirst _ (by omega)]; decide)
  · have hquiet : scanText label s [] p.endLine = .inr (s, p.endLine.take 95) :=
      scanText_quiet (Nat.zero_le 95) fun k _ hk => hnone k hk
    rw [hquiet]
    rw [endChunk, hcut] at h
    dsimp only
    cases ha : p.after with
    | nil => exact Or.inr (Or.inl ⟨hseen, rfl, by rfl⟩)
    | cons c rest =>
      have hc : isNewline c = true := p.newline c (by rw [ha]; rfl)
      refine Or.inr (Or.inr ⟨hseen, c, rest, rfl, ?_⟩)
      rw [pemRunFrom_handed (readLineLoop_newline hc), h]
      rfl

theorem Paste.faithfulRun_some {p : Paste} {r : ReadResult PemResult} :
    p.FaithfulRun (some r) ↔ r.result.isError = true ∨
      (r.result = .captured (joinLines p.blockLines) ∧ r.rest = p.after) := by
  constructor
  · rintro ⟨r', hr, h⟩
    rwa [Option.some.inj hr]
  · exact fun h => ⟨r, rfl, h⟩

theorem Paste.faithfulRun_none {p : Paste} : ¬ p.FaithfulRun none := by
  rintro ⟨r, hr, -⟩
  contradiction

/-- A refused block is refused when its END line is read. -/
theorem faithful_refused {p : Paste} {res : PemResult} (latch : Bool)
    (h : pemLine label s (endChunk p.endLine) = .inl res) (hres : res.isError = true) :
    p.FaithfulRun (pemRunFrom label s [] latch (p.endLine ++ p.after)) ↔ p.EndHanded := by
  obtain ⟨hseen, hrun⟩ | ⟨hseen, hafter, hrun⟩ | ⟨hseen, c, rest, hafter, hrun⟩ :=
    pemRunFrom_end p latch h
  · rw [hrun, Paste.faithfulRun_some]
    exact iff_of_true (Or.inl hres) (Or.inr hseen)
  · rw [hrun]
    refine iff_of_false Paste.faithfulRun_none ?_
    rintro (hne | hyes)
    · exact hne hafter
    · exact absurd hyes (by rw [hseen]; decide)
  · rw [hrun, Paste.faithfulRun_some]
    exact iff_of_true (Or.inl hres) (Or.inl (by rw [hafter]; simp))

/-- A captured block is the pasted one when its text is, and its END line is read whole and no further. -/
theorem faithful_captured {p : Paste} {text : List UInt8} (latch : Bool)
    (h : pemLine label s (endChunk p.endLine) = .inl (.captured text)) :
    p.FaithfulRun (pemRunFrom label s [] latch (p.endLine ++ p.after)) ↔
      text = joinLines p.blockLines ∧ EndCloses p.endLine := by
  rw [endCloses_iff p.ends p.closes]
  obtain ⟨hseen, hrun⟩ | ⟨hseen, hafter, hrun⟩ | ⟨hseen, c, rest, hafter, hrun⟩ :=
    pemRunFrom_end p latch h
  · have hdrop : p.endLine.drop (endCut p.endLine) ++ p.after = p.after ↔
        endChunk p.endLine = p.endLine := by
      rw [List.append_left_eq_self, List.drop_eq_nil_iff, endChunk, List.take_eq_self_iff]
    rw [hrun, Paste.faithfulRun_some]
    simp only [PemResult.isError, PemResult.captured.injEq, hdrop, hseen, true_and]
    simp
  · rw [hrun]
    exact iff_of_false Paste.faithfulRun_none fun hc => absurd hc.2.1 (by rw [hseen]; decide)
  · rw [hrun, Paste.faithfulRun_some]
    refine iff_of_false ?_ fun hc => absurd hc.2.1 (by rw [hseen]; decide)
    rintro (herr | ⟨-, hrest⟩)
    · contradiction
    · rw [hafter] at hrest
      exact absurd (congrArg List.length hrest) (by simp)

theorem lf_notMem {t : List UInt8} (h : ∀ c ∈ t, printable c = true) : lf ∉ t :=
  fun hlf => absurd (h lf hlf) (by decide)

/-- The text captured is that of the block when no line was cut. -/
theorem joinLines_handed {p : Paste} (hcut : endChunk p.endLine = p.endLine) :
    joinLines p.handed = joinLines p.blockLines ↔
      ∀ l ∈ p.beginLine :: p.body, l.text.length ≤ 95 := by
  have hmap : p.handed = p.blockLines ↔ ∀ l ∈ p.beginLine :: p.body, l.text.length ≤ 95 := by
    rw [Paste.handed, Paste.blockLines, hcut, List.append_cancel_right_eq, ← List.map_cons,
      List.map_map, List.map_inj_left]
    simp only [Function.comp, List.take_eq_self_iff]
  rw [← hmap]
  refine ⟨fun h => joinLines_inj ?_ ?_ h, fun h => by rw [h]⟩
  · intro x hx
    rw [Paste.handed, hcut, ← List.map_cons, List.map_map] at hx
    rcases List.mem_append.mp hx with hx | hx
    · obtain ⟨l, -, rfl⟩ := List.mem_map.mp hx
      exact fun hlf => lf_notMem l.printable (List.mem_of_mem_take hlf)
    · rw [List.mem_singleton.mp hx]
      exact lf_notMem p.printable
  · intro x hx
    rw [Paste.blockLines, ← List.map_cons] at hx
    rcases List.mem_append.mp hx with hx | hx
    · obtain ⟨l, -, rfl⟩ := List.mem_map.mp hx
      exact lf_notMem l.printable
    · rw [List.mem_singleton.mp hx]
      exact lf_notMem p.printable

/-- What the reader hands over for an END line is an END line. -/
theorem endChunk_ends {e : List UInt8} (h : startsWith e pemEnd = true) :
    startsWith (endChunk e) pemEnd = true ∧ startsWith (endChunk e) pemBegin = false := by
  have hend : startsWith (endChunk e) pemEnd = true := by
    obtain ⟨-, hseen, -⟩ | ⟨hcut, -, -⟩ := endCut_cases e
    · rw [endSeen] at hseen
      simp only [Bool.and_eq_true] at hseen
      exact hseen.1.2
    · rw [startsWith, List.isPrefixOf_iff_prefix] at h ⊢
      rw [endChunk, hcut]
      exact List.prefix_take_iff.mpr ⟨h, by decide⟩
  refine ⟨hend, ?_⟩
  cases hb : startsWith (endChunk e) pemBegin with
  | false => rfl
  | true =>
    rw [startsWith, List.isPrefixOf_iff_prefix] at hend hb
    exact absurd (List.prefix_of_prefix_length_le hend hb (by decide)) (by decide)

/-- **The block.**  From its BEGIN line on, whatever came before. -/
theorem block_iff (label : List UInt8) (s : PemState) (latch : Bool) (p : Paste) :
    p.FaithfulRun (pemRunFrom label s [] latch
      (p.beginLine.chars ++ (p.body.flatMap TypedLine.chars ++ (p.endLine ++ p.after)))) ↔
      BlockOk label p := by
  have hbegin : startsWith (p.beginLine.text.take 95) pemBegin = true := by
    have h := p.begins
    rw [startsWith, List.isPrefixOf_iff_prefix] at h ⊢
    exact List.prefix_take_iff.mpr ⟨h, by decide⟩
  have hnotEnd : startsWith p.beginLine.text pemEnd = false := by
    cases he : startsWith p.beginLine.text pemEnd with
    | false => rfl
    | true =>
      have h := p.begins
      rw [startsWith, List.isPrefixOf_iff_prefix] at he h
      exact absurd (List.prefix_of_prefix_length_le he h (by decide)) (by decide)
  obtain ⟨hends, hendsB⟩ := endChunk_ends p.ends
  obtain ⟨s1, hs1, hwrong, hright⟩ := pemLine_begin hbegin
    (by rw [List.length_take]; omega)
  have hscan : scanLine label s p.beginLine.text = .inr s1 := (scanLine_notEnd hnotEnd).trans hs1
  obtain ⟨res, l1, rest, h, -⟩ | ⟨s1', l1, h, hrun⟩ := pemRunFrom_line s latch p.beginLine
    (p.body.flatMap TypedLine.chars ++ (p.endLine ++ p.after))
  · exact absurd (hscan.symm.trans h) (by simp)
  obtain rfl := Sum.inr.inj (hscan.symm.trans h)
  rw [hrun, BlockOk]
  by_cases hlabel : strstr (p.beginLine.text.take 95) label = none
  · rw [if_pos hlabel]
    have hw := hwrong hlabel
    obtain ⟨hs, hcancel⟩ | ⟨hs, hno⟩ := scanLines_wrong label hw p.inner
    · obtain ⟨res, l2, rest, h2, hrun2⟩ | ⟨s2, l2, h2, -⟩ :=
        pemRunFrom_lines s1 l1 p.body (p.endLine ++ p.after)
      · obtain rfl := Sum.inl.inj (hs.symm.trans h2)
        rw [hrun2, Paste.faithfulRun_some]
        exact iff_of_true (Or.inl rfl) (Or.inl hcancel)
      · exact absurd (hs.symm.trans h2) (by simp)
    · obtain ⟨res, l2, rest, h2, -⟩ | ⟨s2, l2, h2, hrun2⟩ :=
        pemRunFrom_lines s1 l1 p.body (p.endLine ++ p.after)
      · exact absurd (hs.symm.trans h2) (by simp)
      · obtain rfl := Sum.inr.inj (hs.symm.trans h2)
        rw [hrun2, faithful_refused l2 (hw.close hendsB hends) rfl]
        exact ⟨Or.inr, fun h => h.resolve_left hno⟩
  · rw [if_neg hlabel]
    obtain ⟨s2, hs2, hr2⟩ := scanLines_right label (hright hlabel) p.inner
    have hhanded : [p.beginLine.text.take 95] ++ (p.body.map TypedLine.text).map (List.take 95) ++
        [endChunk p.endLine] = p.handed := rfl
    have hclose : pemLine label s2 (endChunk p.endLine) = _ := hr2.close hendsB hends
    rw [hhanded] at hclose
    obtain ⟨res, l2, rest, h2, -⟩ | ⟨s2', l2, h2, hrun2⟩ :=
      pemRunFrom_lines s1 l1 p.body (p.endLine ++ p.after)
    · exact absurd (hs2.symm.trans h2) (by simp)
    obtain rfl := Sum.inr.inj (hs2.symm.trans h2)
    rw [hrun2]
    by_cases hlarge : iotcConfigPemMax ≤ (joinLines p.handed).length + 1
    · rw [if_pos hlarge] at hclose ⊢
      exact faithful_refused l2 hclose rfl
    · rw [if_neg hlarge] at hclose ⊢
      rw [faithful_captured l2 hclose]
      constructor
      · rintro ⟨htext, hcl⟩
        exact ⟨(joinLines_handed ((endCloses_iff p.ends p.closes).mp hcl).2).mp htext, hcl⟩
      · rintro ⟨hlines, hcl⟩
        exact ⟨(joinLines_handed ((endCloses_iff p.ends p.closes).mp hcl).2).mpr hlines, hcl⟩

/-- **PEM capture.**  For every paste, label and latch, the capture returns an error or exactly the
lines of the block, reading nothing behind its last dash, if and only if the paste is as `PasteOk`
says. -/
theorem readPem_iff (label : List UInt8) (latch : Bool) (p : Paste) :
    Faithful label latch p ↔ PasteOk label p := by
  have hnone : StillOpen label [] := fun pre line post h => by simp at h
  have hlines : ∀ line ∈ p.earlier, line.length ≤ 95 ∧ line ≠ [] := fun line hline => by
    obtain ⟨l, -, hl⟩ := List.mem_flatMap.mp hline
    exact handedOver_line [] l.text (Nat.zero_le 95) line hl
  have hearlier : scanLines label .start p.before = pemLines label .start p.earlier :=
    scanLines_handedOver label .start p.before
  rw [Faithful, prvReadPem, readPemLoop_eq, PasteOk, Paste.chars]
  obtain ⟨res, l1, rest, hs, hrun⟩ | ⟨s1, l1, hs, hrun⟩ := pemRunFrom_lines .start latch p.before
    (p.beginLine.chars ++ (p.body.flatMap TypedLine.chars ++ (p.endLine ++ p.after)))
  · -- the BEGIN line stands unread before what comes after
    have hrest : rest ++ (p.beginLine.chars ++ (p.body.flatMap TypedLine.chars ++
        (p.endLine ++ p.after))) ≠ p.after := fun h => by
      have hlen := congrArg List.length h
      have hpos := List.length_pos_of_ne_nil p.beginLine.nonblank
      simp only [List.length_append, TypedLine.chars] at hlen
      omega
    obtain ⟨res', pre, line, post, hs', hsplit, hopen, hends, hres⟩ | ⟨s', hs', -⟩ :=
      pemLines_cases (open_start label) hnone hlines
    · obtain rfl := Sum.inl.inj (hs.symm.trans (hearlier.trans hs'))
      rw [hrun, Paste.faithfulRun_some, or_iff_left fun h => hrest h.2]
      constructor
      · intro herr
        refine ⟨fun pre' line' post' hsplit' hopen' hends' hcompletes => ?_, fun h => ?_⟩
        · obtain ⟨rfl, rfl⟩ := hopen.unique hopen' hends hends' (hsplit.symm.trans hsplit')
          exact absurd (hres.mpr hcompletes) (by simp [herr])
        · exact absurd hends (h pre line post hsplit)
      · rintro ⟨hfirst, -⟩
        have hnot : ¬ res.isError = false := fun h =>
          hfirst pre line post hsplit hopen hends (hres.mp h)
        simpa using hnot
    · exact absurd (hs.symm.trans (hearlier.trans hs')) (by simp)
  · rw [hrun, block_iff label s1 l1 p]
    obtain ⟨res', pre, line, post, hs', -⟩ | ⟨s', -, hopen⟩ := pemLines_cases (open_start label) hnone hlines
    · exact absurd (hs.symm.trans (hearlier.trans hs')) (by simp)
    · rw [List.nil_append] at hopen
      exact ⟨fun h => ⟨fun pre line post hsplit _ hends => absurd hends (hopen pre line post hsplit),
        fun _ => h⟩, fun h => h.2 hopen⟩

/-! ### A line of 96 characters -/

def certificate : List UInt8 := ascii ['C', 'E', 'R', 'T', 'I', 'F', 'I', 'C', 'A', 'T', 'E']

/-- One body line, as long as given. -/
def bodyLine (n : ℕ) (hn : n ≠ 0) : TypedLine where
  text := List.replicate n 0x41
  ending := [cr, lf]
  printable c hc := by
    rw [List.eq_of_mem_replicate hc]
    decide +kernel
  nonblank h := hn (by simpa using h)
  ended := by decide +kernel
  newlines := by decide +kernel

def certificatePaste (n : ℕ) (hn : n ≠ 0) : Paste where
  before := []
  beginLine :=
    { text := pemBegin ++ [0x20] ++ certificate ++ dashes
      ending := [cr, lf]
      printable := by decide +kernel
      nonblank := by decide +kernel
      ended := by decide +kernel
      newlines := by decide +kernel }
  body := [bodyLine n hn]
  endLine := pemEnd ++ [0x20] ++ certificate ++ dashes
  after := [cr, lf]
  notBegin := by decide +kernel
  begins := by decide +kernel
  inner l hl := by
    obtain rfl := List.mem_singleton.mp hl
    cases n with
    | zero => exact absurd rfl hn
    | succ n => exact ⟨rfl, rfl⟩
  ends := by decide +kernel
  closes := by decide +kernel
  printable := by decide +kernel
  newline := by decide +kernel

/-- Its 96th character is lost without an error. -/
theorem readPem_cuts_line :
    ¬ ∀ (label : List UInt8) (latch : Bool) (p : Paste), Faithful label latch p := by
  intro h
  obtain ⟨r, hr, hfaithful⟩ := h certificate false (certificatePaste 96 (by decide))
  have hrun : (prvReadPem certificate false (certificatePaste 96 (by decide)).chars).map
      ReadResult.result = some (.captured
        (joinLines (certificatePaste 95 (by decide)).blockLines)) := by decide +kernel
  rw [hr] at hrun
  have hres := Option.some.inj hrun
  rcases hfaithful with herr | ⟨hlines, -⟩
  · rw [hres] at herr
    exact absurd herr (by decide)
  · exact absurd (hres.symm.trans hlines) (by decide +kernel)

end IotcRa8p1.App.Cli
