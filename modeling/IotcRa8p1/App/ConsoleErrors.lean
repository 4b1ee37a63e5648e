import Mathlib.Data.Int.Notation
import Mathlib.Data.Nat.Basic

/-!
# Errors while printing (`console_output.c`, `common_util.c`)

`console_output_write` calls `handle_error` when the UART driver refuses a write, `print_to_console` calls it
once more when `console_output_write` returns an error, and `handle_error` prints its message by
`print_to_console` before it stops at a breakpoint.

What the driver answers is a sequence, and every write takes the next answer.  `resume` says whether execution
goes on behind the breakpoint.  `print_finishes_iff` says for which answers a print comes to an end.
-/

namespace IotcRa8p1.App.ConsoleErrors

/-- How a call ends: it returns, with success or an error, or execution stops at the breakpoint. -/
inductive Signal where
  | returned (ok : Bool)
  | trapped
  deriving DecidableEq

/-- How a call that started at some answer ends and which answer is next, `none` when the nesting is
deeper than was allowed for. -/
abbrev Outcome := Option (Signal × ℕ)

/-- Go on behind a call, with what it has returned. -/
def Outcome.andThen (o : Outcome) (next : Bool → ℕ → Outcome) : Outcome :=
  match o with
  | some (.returned ok, n) => next ok n
  | o => o

/-- `handle_error (VISION_AI_APP_ERR_CONSOLE_WRITE)`; `print` is `print_to_console`. -/
def handleError (resume : Bool) (print : ℕ → Outcome) (n : ℕ) : Outcome :=
  (print n).andThen fun _ n => if resume = true then some (.returned true, n) else some (.trapped, n)

/-- `console_output_write`; the mutex is given back before `handle`. -/
def consoleOutputWrite (results : ℕ → Bool) (handle : ℕ → Outcome) (n : ℕ) : Outcome :=
  if results n = true then some (.returned true, n + 1)
  else (handle (n + 1)).andThen fun _ n => some (.returned false, n)

/-- `print_to_console`, with calls of it nested at most `depth` deep. -/
def printToConsole (resume : Bool) (results : ℕ → Bool) : ℕ → ℕ → Outcome
  | 0, _ => none
  | depth + 1, n =>
    let handle := handleError resume (printToConsole resume results depth)
    (consoleOutputWrite results handle n).andThen fun ok n =>
      if ok = true then some (.returned true, n)
      else (handle n).andThen fun _ n => some (.returned false, n)

/-- The call finishes with calls nested to some depth. -/
def Finishes (resume : Bool) (results : ℕ → Bool) : Prop :=
  ∃ depth, (printToConsole resume results depth 0).isSome = true

/-! ### What a level does -/

section

variable {resume : Bool} {results : ℕ → Bool} {depth n : ℕ}

/-- The write succeeds. -/
theorem print_ok (h : results n = true) :
    printToConsole resume results (depth + 1) n = some (.returned true, n + 1) := by
  simp only [printToConsole, consoleOutputWrite, if_pos h, Outcome.andThen]
  rfl

/-- The write fails: behind the breakpoint of the first report comes a second one. -/
theorem print_failed (h : results n = false) :
    printToConsole resume results (depth + 1) n =
      (handleError resume (printToConsole resume results depth) (n + 1)).andThen fun _ n =>
        (handleError resume (printToConsole resume results depth) n).andThen fun _ n =>
          some (.returned false, n) := by
  rw [printToConsole, consoleOutputWrite, if_neg (by rw [h]; decide)]
  cases handleError resume (printToConsole resume results depth) (n + 1) with
  | none => rfl
  | some r =>
    obtain ⟨signal, m⟩ := r
    cases signal with
    | trapped => rfl
    | returned ok => rfl

end

/-! ### Stopping at the breakpoint -/

section

variable {results : ℕ → Bool}

theorem handleError_stops (print : ℕ → Outcome) (n : ℕ) {r : Signal × ℕ}
    (h : handleError false print n = some r) : r.1 = .trapped ∧ (print n).isSome = true := by
  rw [handleError] at h
  cases hprint : print n with
  | none =>
    rw [hprint] at h
    contradiction
  | some p =>
    obtain ⟨signal, m⟩ := p
    rw [hprint] at h
    cases signal with
    | trapped => exact ⟨by rw [← Option.some.inj h], rfl⟩
    | returned ok => exact ⟨by rw [← Option.some.inj h], rfl⟩

/-- A print that ends has met an answer of success. -/
theorem success_of_print_stops (depth n : ℕ)
    (h : (printToConsole false results depth n).isSome = true) : ∃ k, results k = true := by
  induction depth generalizing n with
  | zero => contradiction
  | succ depth ih =>
    cases hn : results n with
    | true => exact ⟨n, hn⟩
    | false =>
      rw [print_failed hn] at h
      cases hhandle : handleError false (printToConsole false results depth) (n + 1) with
      | none =>
        rw [hhandle] at h
        contradiction
      | some r => exact ih (n + 1) (handleError_stops _ _ hhandle).2

/-- Every answer before the first success goes one level deeper. -/
theorem print_stops_of_success {d n : ℕ} (h : results (n + d) = true) :
    (printToConsole false results (d + 1) n).isSome = true := by
  induction d generalizing n with
  | zero =>
    rw [Nat.add_zero] at h
    rw [print_ok h]
    rfl
  | succ d ih =>
    cases hn : results n with
    | true =>
      rw [print_ok hn]
      rfl
    | false =>
      have hnext := ih (n := n + 1) (by rwa [Nat.add_right_comm])
      obtain ⟨⟨signal, m⟩, hr⟩ := Option.isSome_iff_exists.mp hnext
      rw [print_failed hn, handleError, hr]
      cases signal with
      | trapped => rfl
      | returned ok => rfl

end

/-! ### Going on behind the breakpoint -/

/-- Successes less failures among `len` answers from the `n`th on. -/
def balance (results : ℕ → Bool) (n : ℕ) : ℕ → ℤ
  | 0 => 0
  | len + 1 => balance results n len + if results (n + len) = true then 1 else -1

section

variable {results : ℕ → Bool}

theorem balance_add (n a b : ℕ) :
    balance results n (a + b) = balance results n a + balance results (n + a) b := by
  induction b with
  | zero => simp [balance]
  | succ b ih =>
    rw [← Nat.add_assoc, balance, balance, ih, Nat.add_assoc n a b]
    omega

theorem balance_one (n : ℕ) : balance results n 1 = if results n = true then 1 else -1 := by
  rw [balance, balance, Nat.add_zero]
  omega

/-- The balance moves by one, so it meets 1 on its way up. -/
theorem balance_meets_one {n len : ℕ} (h : 1 ≤ balance results n len) :
    ∃ l, l ≤ len ∧ balance results n l = 1 := by
  induction len with
  | zero =>
    rw [balance] at h
    contradiction
  | succ len ih =>
    by_cases hge : 1 ≤ balance results n len
    · obtain ⟨l, hl, hone⟩ := ih hge
      exact ⟨l, Nat.le_succ_of_le hl, hone⟩
    · refine ⟨len + 1, Nat.le_refl _, ?_⟩
      rw [balance] at h ⊢
      split_ifs at h ⊢
      · omega
      · omega

theorem handleError_resumes {print : ℕ → Outcome} {n m : ℕ} {ok : Bool}
    (h : print n = some (.returned ok, m)) :
    handleError true print n = some (.returned true, m) := by
  rw [handleError, h]
  rfl

/-- A print that ends returns where the successes are one ahead of the failures. -/
theorem balance_of_print (depth n : ℕ) {r : Signal × ℕ}
    (h : printToConsole true results depth n = some r) :
    ∃ ok len, r = (.returned ok, n + len) ∧ balance results n len = 1 := by
  induction depth generalizing n r with
  | zero => contradiction
  | succ depth ih =>
    cases hn : results n with
    | true =>
      rw [print_ok hn] at h
      exact ⟨true, 1, (Option.some.inj h).symm, by rw [balance_one, if_pos hn]⟩
    | false =>
      rw [print_failed hn] at h
      cases hfirst : printToConsole true results depth (n + 1) with
      | none =>
        rw [handleError, hfirst] at h
        contradiction
      | some p =>
        obtain ⟨ok1, len1, rfl, hlen1⟩ := ih (n + 1) hfirst
        rw [handleError_resumes hfirst] at h
        dsimp only [Outcome.andThen] at h
        cases hsecond : printToConsole true results depth (n + 1 + len1) with
        | none =>
          rw [handleError, hsecond] at h
          contradiction
        | some q =>
          obtain ⟨ok2, len2, rfl, hlen2⟩ := ih (n + 1 + len1) hsecond
          rw [handleError_resumes hsecond] at h
          refine ⟨false, 1 + (len1 + len2), ?_, ?_⟩
          · rw [← Option.some.inj h]
            simp only [Nat.add_assoc]
          · rw [balance_add, balance_add, balance_one, hn, hlen1, hlen2]
            rfl

theorem handleError_mono {resume : Bool} {print print' : ℕ → Outcome} {n : ℕ} {r : Signal × ℕ}
    (hprint : ∀ r, print n = some r → print' n = some r)
    (h : handleError resume print n = some r) : handleError resume print' n = some r := by
  rw [handleError] at h ⊢
  cases hp : print n with
  | none =>
    rw [hp] at h
    contradiction
  | some p => rwa [hprint p hp, ← hp]

/-- More room for nested calls changes nothing. -/
theorem print_succ {resume : Bool} (depth n : ℕ) {r : Signal × ℕ}
    (h : printToConsole resume results depth n = some r) :
    printToConsole resume results (depth + 1) n = some r := by
  induction depth generalizing n r with
  | zero => contradiction
  | succ depth ih =>
    cases hn : results n with
    | true =>
      rw [print_ok hn] at h ⊢
      exact h
    | false =>
      rw [print_failed hn] at h ⊢
      cases hfirst : handleError resume (printToConsole resume results depth) (n + 1) with
      | none =>
        rw [hfirst] at h
        contradiction
      | some p =>
        rw [hfirst] at h
        rw [handleError_mono (fun r => ih (n + 1)) hfirst]
        obtain ⟨signal, m⟩ := p
        cases signal with
        | trapped => exact h
        | returned ok =>
          dsimp only [Outcome.andThen] at h ⊢
          cases hsecond : handleError resume (printToConsole resume results depth) m with
          | none =>
            rw [hsecond] at h
            contradiction
          | some q =>
            rw [hsecond] at h
            rw [handleError_mono (fun r => ih m) hsecond]
            exact h

theorem print_mono {resume : Bool} {depth depth' n : ℕ} {r : Signal × ℕ} (hle : depth ≤ depth')
    (h : printToConsole resume results depth n = some r) :
    printToConsole resume results depth' n = some r := by
  induction depth', hle using Nat.le_induction with
  | base => exact h
  | succ depth' hle ih => exact print_succ depth' n ih

/-- Where the successes get ahead of the failures, a print has returned. -/
theorem print_of_balance (len n : ℕ) (h : balance results n len = 1) :
    ∃ depth ok l, l ≤ len ∧ printToConsole true results depth n = some (.returned ok, n + l) := by
  induction len using Nat.strongRecOn generalizing n with
  | ind len ih =>
    cases len with
    | zero => exact absurd h (by rw [balance]; decide)
    | succ len =>
      cases hn : results n with
      | true => exact ⟨1, true, 1, by omega, print_ok hn⟩
      | false =>
        -- the two reports have to make up for the failure
        have htwo : balance results (n + 1) len = 2 := by
          rw [Nat.add_comm len 1, balance_add, balance_one, hn] at h
          have hfail : ((if (false : Bool) = true then 1 else -1 : ℤ)) = -1 := rfl
          omega
        obtain ⟨l, hl, hone⟩ := balance_meets_one (by omega : 1 ≤ balance results (n + 1) len)
        obtain ⟨depth1, ok1, l1, hl1, hfirst⟩ := ih l (by omega) (n + 1) hone
        have hlen1 : balance results (n + 1) l1 = 1 := by
          obtain ⟨ok, len1, hr, hlen1⟩ := balance_of_print depth1 (n + 1) hfirst
          rwa [Nat.add_left_cancel (Prod.mk.inj hr).2]
        have hrest : balance results (n + 1 + l1) (len - l1) = 1 := by
          have hadd : balance results (n + 1) (l1 + (len - l1)) = _ := balance_add (n + 1) l1 (len - l1)
          rw [show l1 + (len - l1) = len by omega, htwo, hlen1] at hadd
          omega
        obtain ⟨depth2, ok2, l2, hl2, hsecond⟩ := ih (len - l1) (by omega) (n + 1 + l1) hrest
        refine ⟨max depth1 depth2 + 1, false, 1 + l1 + l2, by omega, ?_⟩
        have hfirst' := print_mono (le_max_left depth1 depth2) hfirst
        have hsecond' := print_mono (le_max_right depth1 depth2) hsecond
        rw [print_failed hn, handleError_resumes hfirst']
        dsimp only [Outcome.andThen]
        rw [handleError_resumes hsecond']
        dsimp only
        rw [Nat.add_assoc, Nat.add_assoc, Nat.add_assoc]

end

/-! ### When a print finishes -/

/-- Some answer is a success; when execution goes on behind the breakpoint, the successes must get one ahead
of the failures. -/
def Clears (resume : Bool) (results : ℕ → Bool) : Prop :=
  if resume = true then ∃ len, balance results 0 len = 1 else ∃ k, results k = true

/-- **Errors while printing.**  A print finishes with a bounded number of nested calls exactly when the
driver takes a write again, often enough to get ahead of its failures if the breakpoint does not stop
it. -/
theorem print_finishes_iff (resume : Bool) (results : ℕ → Bool) :
    Finishes resume results ↔ Clears resume results := by
  cases resume with
  | false =>
    constructor
    · rintro ⟨depth, h⟩
      exact success_of_print_stops depth 0 h
    · rintro ⟨k, hk⟩
      exact ⟨k + 1, print_stops_of_success (by rwa [Nat.zero_add])⟩
  | true =>
    constructor
    · rintro ⟨depth, h⟩
      obtain ⟨r, hr⟩ := Option.isSome_iff_exists.mp h
      obtain ⟨ok, len, -, hone⟩ := balance_of_print depth 0 hr
      exact ⟨len, hone⟩
    · rintro ⟨len, hlen⟩
      obtain ⟨depth, ok, l, -, hprint⟩ := print_of_balance len 0 hlen
      exact ⟨depth, by rw [hprint]; rfl⟩

/-- A driver that refuses every write. -/
theorem print_never_finishes :
    ¬ ∀ (resume : Bool) (results : ℕ → Bool), Finishes resume results := by
  intro h
  obtain ⟨depth, hdepth⟩ := h false fun _ => false
  obtain ⟨k, hk⟩ := success_of_print_stops depth 0 hdepth
  contradiction

end IotcRa8p1.App.ConsoleErrors
