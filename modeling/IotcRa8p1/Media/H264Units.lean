import IotcRa8p1.Media.H264
import Mathlib.Data.List.Basic

/-!
# From a frame to the units of the array

`addFrame_eq`: the loop over indices puts the units of `Annexb.parse` into the array, one call of
`H264Packetizer_AddNalu` after the other until one fails.
-/

namespace IotcRa8p1.Media.H264

open Annexb (codeAt parse)

/-- One call of `H264Packetizer_AddNalu` for each unit, until one fails. -/
def addNalus (ctx : PacketizerContext) : List Nalu → H264Result × PacketizerContext
  | [] => (.ok, ctx)
  | nalu :: nalus =>
    match addNalu ctx (some nalu) with
    | (.ok, ctx) => addNalus ctx nalus
    | r => r

/-- What `H264Packetizer_AddFrame` does behind its loop. -/
def finishFrame (frame : List UInt8) : H264Result × AddFrameState → H264Result × PacketizerContext
  | (.ok, s) =>
    if s.naluStartIndex > 0 then addNalu s.ctx (some (frame.drop s.naluStartIndex))
    else (.malformedPacket, s.ctx)
  | (result, s) => (result, s.ctx)

theorem addFrame_some {frame : List UInt8} (ctx : PacketizerContext) (h : frame ≠ []) :
    addFrame ctx (some frame) = finishFrame frame (addFrameLoop frame 0 ⟨true, 0, ctx⟩) := by
  rw [addFrame, if_neg (by simpa using h)]
  rcases addFrameLoop frame 0 ⟨true, 0, ctx⟩ with ⟨_ | _, s⟩ <;> rfl

theorem addNalus_ok {ctx : PacketizerContext} {nalu : Nalu} (nalus : List Nalu)
    (h : (addNalu ctx (some nalu)).1 = .ok) :
    addNalus ctx (nalu :: nalus) = addNalus (addNalu ctx (some nalu)).2 nalus := by
  rw [addNalus]
  split
  · next ctx' hs => rw [hs]
  · next hne => exact (hne _ (Prod.ext h rfl)).elim

theorem addNalus_fail {ctx : PacketizerContext} {nalu : Nalu} (nalus : List Nalu)
    (h : (addNalu ctx (some nalu)).1 ≠ .ok) : addNalus ctx (nalu :: nalus) = addNalu ctx (some nalu) := by
  rw [addNalus]
  split
  · next ctx' hs => exact absurd (congrArg Prod.fst hs) h
  · rfl

theorem finishFrame_started {frame : List UInt8} {s : AddFrameState} (h : 0 < s.naluStartIndex) :
    finishFrame frame (.ok, s) = addNalu s.ctx (some (frame.drop s.naluStartIndex)) :=
  if_pos h

theorem finishFrame_unstarted (frame : List UInt8) (ctx : PacketizerContext) :
    finishFrame frame (.ok, ⟨true, 0, ctx⟩) = (.malformedPacket, ctx) := rfl

theorem finishFrame_fail {frame : List UInt8} {r : H264Result × AddFrameState} (h : r.1 ≠ .ok) :
    finishFrame frame r = (r.1, r.2.ctx) := by
  rw [finishFrame.eq_def]
  split
  · exact absurd rfl h
  · rfl

theorem addNalus_singleton (ctx : PacketizerContext) (nalu : Nalu) :
    addNalus ctx [nalu] = addNalu ctx (some nalu) := by
  by_cases h : (addNalu ctx (some nalu)).1 = .ok
  · rw [addNalus_ok [] h]
    exact Prod.ext h.symm rfl
  · exact addNalus_fail [] h

/-! ### One turn of the loop -/

variable {frame : List UInt8} {currentIndex : ℕ}

theorem addFrameLoop_end (h : frame.length ≤ currentIndex) (s : AddFrameState) :
    addFrameLoop frame currentIndex s = (.ok, s) := by
  rw [addFrameLoop, dif_neg (Nat.not_lt.mpr h)]

theorem addFrameLoop_byte (h : currentIndex < frame.length) (hc : codeAt (frame.drop currentIndex) = none)
    (s : AddFrameState) :
    addFrameLoop frame currentIndex s = addFrameLoop frame (currentIndex + 1) s := by
  rw [addFrameLoop, dif_pos h, hc]

theorem addFrameLoop_code {c : Annexb.Code} {s : AddFrameState} (h : currentIndex < frame.length)
    (hc : codeAt (frame.drop currentIndex) = some c)
    (hok : (atStartCode frame currentIndex c.bytes.length s).1 = .ok) :
    addFrameLoop frame currentIndex s = addFrameLoop frame (currentIndex + c.bytes.length)
      (atStartCode frame currentIndex c.bytes.length s).2 := by
  rw [addFrameLoop, dif_pos h, hc]
  dsimp only
  split
  · next s' hs => rw [hs]
  · next result s' hne hs => exact absurd ((congrArg Prod.fst hs).symm.trans hok) hne

theorem addFrameLoop_fail {c : Annexb.Code} {s : AddFrameState} (h : currentIndex < frame.length)
    (hc : codeAt (frame.drop currentIndex) = some c)
    (hfail : (atStartCode frame currentIndex c.bytes.length s).1 ≠ .ok) :
    addFrameLoop frame currentIndex s = atStartCode frame currentIndex c.bytes.length s := by
  rw [addFrameLoop, dif_pos h, hc]
  dsimp only
  split
  · next s' hs => exact absurd (congrArg Prod.fst hs) hfail
  · next result s' hne hs => exact hs.symm

theorem drop_eq_cons (h : currentIndex < frame.length) :
    frame.drop currentIndex = frame[currentIndex] :: frame.drop (currentIndex + 1) :=
  List.drop_eq_getElem_cons h

/-! ### The whole loop -/

/-- Inside a unit: the bytes since its start belong to it. -/
theorem addFrameLoop_unit {start : ℕ} (ctx : PacketizerContext) (hpos : 0 < start)
    (hstart : start ≤ currentIndex) (hcur : currentIndex ≤ frame.length) :
    finishFrame frame (addFrameLoop frame currentIndex ⟨false, start, ctx⟩) =
      addNalus ctx (((frame.drop start).take (currentIndex - start) ++ (parse (frame.drop currentIndex)).1) ::
        (parse (frame.drop currentIndex)).2) := by
  induction hn : frame.length - currentIndex using Nat.strong_induction_on
    generalizing currentIndex start ctx with
  | _ n ih =>
    rcases Nat.lt_or_ge currentIndex frame.length with hlt | hge
    · cases hc : codeAt (frame.drop currentIndex) with
      | none =>
        have hcode := hc
        rw [drop_eq_cons hlt] at hcode
        rw [addFrameLoop_byte hlt hc, ih (frame.length - (currentIndex + 1)) (by omega) ctx hpos (by omega) hlt rfl,
          drop_eq_cons hlt, Annexb.parse_cons hcode]
        have htake : (frame.drop start).take (currentIndex + 1 - start) =
            (frame.drop start).take (currentIndex - start) ++ [frame[currentIndex]] := by
          rw [show currentIndex + 1 - start = currentIndex - start + 1 by omega, List.take_add_one,
            List.getElem?_drop, Nat.add_sub_cancel' hstart, List.getElem?_eq_getElem hlt]
          rfl
        rw [htake, List.append_assoc]
        rfl
      | some c =>
        have hle : currentIndex + c.bytes.length ≤ frame.length := by
          have hprefix := (Annexb.codeAt_starts hc).length_le
          rw [List.length_drop] at hprefix
          omega
        have hcpos := c.bytes_pos
        rw [Annexb.parse_code hc, List.drop_drop, List.append_nil]
        by_cases hok : (addNalu ctx (some ((frame.drop start).take (currentIndex - start)))).1 = .ok
        · rw [addFrameLoop_code (s := ⟨false, start, ctx⟩) hlt hc hok, addNalus_ok _ hok]
          show finishFrame frame (addFrameLoop frame (currentIndex + c.bytes.length)
            ⟨false, currentIndex + c.bytes.length, _⟩) = _
          rw [ih (frame.length - (currentIndex + c.bytes.length)) (by omega) _ (by omega) (Nat.le_refl _) hle rfl,
            Nat.sub_self, List.take_zero, List.nil_append]
          rfl
        · rw [addFrameLoop_fail (s := ⟨false, start, ctx⟩) hlt hc hok, addNalus_fail _ hok]
          exact finishFrame_fail (r := atStartCode frame currentIndex c.bytes.length ⟨false, start, ctx⟩) hok
    · obtain rfl : currentIndex = frame.length := Nat.le_antisymm hcur hge
      rw [addFrameLoop_end (Nat.le_refl _), List.drop_length, Annexb.parse_nil, List.append_nil,
        addNalus_singleton, List.take_of_length_le (by rw [List.length_drop])]
      exact finishFrame_started hpos

/-- Before the first start code. -/
theorem addFrameLoop_start (ctx : PacketizerContext) (hcur : currentIndex ≤ frame.length) :
    finishFrame frame (addFrameLoop frame currentIndex ⟨true, 0, ctx⟩) =
      if (parse (frame.drop currentIndex)).2 = [] then (.malformedPacket, ctx)
      else addNalus ctx (parse (frame.drop currentIndex)).2 := by
  induction hn : frame.length - currentIndex using Nat.strong_induction_on generalizing currentIndex with
  | _ n ih =>
    rcases Nat.lt_or_ge currentIndex frame.length with hlt | hge
    · cases hc : codeAt (frame.drop currentIndex) with
      | none =>
        have hcode := hc
        rw [drop_eq_cons hlt] at hcode
        rw [addFrameLoop_byte hlt hc, ih (frame.length - (currentIndex + 1)) (by omega) hlt rfl,
          drop_eq_cons hlt, Annexb.parse_cons hcode]
      | some c =>
        have hle : currentIndex + c.bytes.length ≤ frame.length := by
          have hprefix := (Annexb.codeAt_starts hc).length_le
          rw [List.length_drop] at hprefix
          omega
        have hcpos := c.bytes_pos
        rw [addFrameLoop_code hlt hc rfl, Annexb.parse_code hc, List.drop_drop, if_neg (List.cons_ne_nil _ _)]
        show finishFrame frame (addFrameLoop frame (currentIndex + c.bytes.length)
          ⟨false, currentIndex + c.bytes.length, ctx⟩) = _
        rw [addFrameLoop_unit ctx (by omega) (Nat.le_refl _) hle, Nat.sub_self, List.take_zero, List.nil_append]
    · rw [addFrameLoop_end hge, List.drop_of_length_le hge, Annexb.parse_nil, if_pos rfl]
      exact finishFrame_unstarted frame ctx

/-- The frame's units, one call after the other; a frame with no start code is malformed. -/
theorem addFrame_eq (ctx : PacketizerContext) (h : frame ≠ []) :
    addFrame ctx (some frame) =
      if (parse frame).2 = [] then (.malformedPacket, ctx) else addNalus ctx (parse frame).2 := by
  rw [addFrame_some ctx h, addFrameLoop_start ctx (Nat.zero_le _), List.drop_zero]

end IotcRa8p1.Media.H264
