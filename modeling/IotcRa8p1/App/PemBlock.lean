import IotcRa8p1.App.PemCapture

/-!
# What the capture has read when it ends

The characters may be anything; `LinesRead` says which lines they were read as and where the next one
begins.  The loop body on these lines leaves the locals as `Open` says or ends the capture as `Closed`
says (`open_pemLine`), so the whole run is an induction over the lines.
-/

namespace IotcRa8p1.App.Cli

open CString

/-- Lines read one after another, the latch behind them and the characters not read. -/
inductive LinesRead : Bool → List UInt8 → List (List UInt8) → Bool → List UInt8 → Prop
  | none {latch : Bool} {input : List UInt8} : LinesRead latch input [] latch input
  | line {latch latch' : Bool} {input rest : List UInt8} {r : ReadResult (List UInt8)}
      {lines : List (List UInt8)} (h : prvReadLine 96 false latch input = some r)
      (hrest : LinesRead r.latch r.rest lines latch' rest) :
      LinesRead latch input (r.result :: lines) latch' rest

theorem prvReadLine_isLine {latch : Bool} {input : List UInt8} {r : ReadResult (List UInt8)}
    (h : prvReadLine 96 false latch input = some r) : IsLine 96 r.result :=
  readLineLoop_isLine ⟨Nat.zero_le _, fun _ hc => absurd hc List.not_mem_nil⟩ h

/-- **The whole capture.**  What it has read when it ends. -/
theorem closed_of_run {label : List UInt8} {s : PemState} {before : List (List UInt8)} {latch : Bool}
    {input : List UInt8} {r : ReadResult PemResult} (hs : Open label s before)
    (h : pemRunFrom label s [] latch input = some r) :
    ∃ lines, LinesRead latch input lines r.latch r.rest ∧ (∀ line ∈ lines, IsLine 96 line) ∧
      Closed label (before ++ lines) r.result := by
  induction hn : input.length using Nat.strong_induction_on generalizing s before latch input with
  | _ n ih =>
    cases hread : readLineLoop 96 false [] latch input with
    | none =>
      rw [pemRunFrom, hread] at h
      contradiction
    | some line =>
      have hline : IsLine 96 line.result := prvReadLine_isLine hread
      have hstep := open_pemLine hs hline.short
      rw [pemRunFrom_handed hread] at h
      cases hres : pemLine label s line.result with
      | inl res =>
        rw [hres] at h hstep
        obtain rfl := Option.some.inj h
        refine ⟨[line.result], .line hread .none, ?_, hstep⟩
        intro x hx
        rwa [List.mem_singleton.mp hx]
      | inr s' =>
        rw [hres] at h hstep
        have hshort : line.rest.length < n := by
          rw [← hn]
          exact readLineLoop_rest hread
        obtain ⟨lines, hlines, hall, hclosed⟩ := ih _ hshort hstep h rfl
        refine ⟨line.result :: lines, .line hread hlines, ?_, ?_⟩
        · intro x hx
          rcases List.mem_cons.mp hx with hx | hx
          · rwa [hx]
          · exact hall x hx
        · rwa [List.append_assoc, List.singleton_append] at hclosed

end IotcRa8p1.App.Cli
