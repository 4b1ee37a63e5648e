import IotcRa8p1.Lib.Greedy
import IotcRa8p1.Vision.BoxDraw
import Mathlib.Logic.Function.Basic
import Mathlib.Order.Nat

/-!
# Non-maximum suppression and the published boxes (`DetectorPostProcessing.cc`, `FaceDetection.cc`)

`diounms_sort` sorts the detections by the score of a class and clears the score of every later one that
overlaps one whose score stands; `runPostProcessing` keeps what has a score left, `face_detection_run`
publishes the first eight and the telemetry reports the score of the first.

Scores are of any linear order with a zero, and any relation of two boxes may stand for the DIoU test.  The
suppression leaves what the greedy choice over the sorted candidates leaves: `filter_suppressAll`.
-/

namespace IotcRa8p1.Vision.Nms

open Greedy Loop

variable {α β γ : Type*}

/-- A detection: the box, and the score of each class. -/
structure Detection (α β : Type*) where
  bbox : β
  prob : ℕ → α

/-- A result, and a published box: the box and its score. -/
structure DetectionResult (α γ : Type*) where
  normalisedVal : α
  box : γ

section model

variable [LinearOrder α]

/-- `det_comparator` -/
def detComparator (sortClass : ℕ) (pa pb : Detection α β) : Bool :=
  decide (pb.prob sortClass < pa.prob sortClass)

/-- `dets.sort (det_comparator)`, which is stable: no item stands before one that compares less. -/
def sortDets (sortClass : ℕ) (dets : List (Detection α β)) : List (Detection α β) :=
  dets.mergeSort fun a b => !detComparator sortClass b a

theorem sortDets_perm (k : ℕ) (dets : List (Detection α β)) : (sortDets k dets).Perm dets :=
  List.mergeSort_perm dets _

theorem sortDets_sorted (k : ℕ) (dets : List (Detection α β)) :
    (sortDets k dets).Pairwise fun a b => b.prob k ≤ a.prob k := by
  have hle (a b : Detection α β) : (!detComparator k b a) = true ↔ b.prob k ≤ a.prob k := by
    rw [detComparator, Bool.not_eq_true', decide_eq_false_iff_not, not_lt]
  have hsorted : (sortDets k dets).Pairwise fun a b => (!detComparator k b a) = true := by
    refine List.pairwise_mergeSort (fun a b c hab hbc => ?_) (fun a b => ?_) dets
    · exact (hle a c).mpr (((hle b c).mp hbc).trans ((hle a b).mp hab))
    · rw [Bool.or_eq_true, hle, hle]
      exact le_total _ _
  exact hsorted.imp fun {a b} hab => (hle a b).mp hab

variable [Zero α]

/-- `prob[k] = 0` -/
def Detection.clear (k : ℕ) (d : Detection α β) : Detection α β :=
  { d with prob := Function.update d.prob k 0 }

/-- The inner loop of `diounms_sort`, for one `it`. -/
def suppressFrom (overlap : β → β → Bool) (k : ℕ) (it : Detection α β) :
    List (Detection α β) → List (Detection α β) :=
  List.map fun itc =>
    if itc.prob k = 0 then itc
    else if overlap it.bbox itc.bbox = true then itc.clear k
    else itc

theorem length_suppressFrom (overlap : β → β → Bool) (k : ℕ) (it : Detection α β)
    (dets : List (Detection α β)) : (suppressFrom overlap k it dets).length = dets.length :=
  List.length_map _

/-- The loop over `it`. -/
def suppressAll (overlap : β → β → Bool) (k : ℕ) : List (Detection α β) → List (Detection α β)
  | [] => []
  | it :: dets =>
    if it.prob k = 0 then it :: suppressAll overlap k dets
    else it :: suppressAll overlap k (suppressFrom overlap k it dets)
termination_by dets => dets.length
decreasing_by
  · exact Nat.lt_succ_self _
  · rw [length_suppressFrom]
    exact Nat.lt_succ_self _

/-- `diounms_sort`, the DIoU test in place of `overlap`. -/
def diounmsSort (overlap : β → β → Bool) (classes : ℕ) : List (Detection α β) → List (Detection α β) :=
  forLoop classes fun k dets => suppressAll overlap k (sortDets k dets)

/-- `runPostProcessing` behind `get_network_boxes`, with one class; `clip` is the box in the image. -/
def runPostProcessing (overlap : β → β → Bool) (clip : β → γ) (dets : List (Detection α β)) :
    List (DetectionResult α γ) :=
  (diounmsSort overlap 1 dets).flatMap fun it =>
    (List.range 1).flatMap fun j => if 0 < it.prob j then [⟨it.prob j, clip it.bbox⟩] else []

/-- `FD_MAX_BOXES` -/
abbrev fdMaxBoxes : ℕ := 8

/-- The box list of `face_detection_run`: `s_boxes` up to `s_box_count`. -/
def publishedBoxes (results : List (DetectionResult α γ)) : List (DetectionResult α γ) :=
  results.take fdMaxBoxes

/-- `top_score` of `prv_publish_telemetry` -/
def topScore (boxes : List (DetectionResult α γ)) : α :=
  match boxes with
  | [] => 0
  | b :: _ => b.normalisedVal

/-! ### The suppression and the greedy choice -/

/-- The detections whose score stands. -/
def live (k : ℕ) (dets : List (Detection α β)) : List (Detection α β) :=
  dets.filter fun d => decide (0 < d.prob k)

/-- What the greedy choice takes for a conflict. -/
def conflict (overlap : β → β → Bool) (a b : Detection α β) : Bool := overlap a.bbox b.bbox

variable {overlap : β → β → Bool} {k : ℕ}

/-- One turn of the outer loop takes the overlapping detections out of those whose score stands. -/
theorem live_suppressFrom (it : Detection α β) (dets : List (Detection α β)) :
    live k (suppressFrom overlap k it dets) = spared (conflict overlap) it (live k dets) := by
  induction dets with
  | nil => rfl
  | cons itc dets ih =>
    have hrest : live k (suppressFrom overlap k it (itc :: dets)) =
        live k (suppressFrom overlap k it [itc]) ++ live k (suppressFrom overlap k it dets) :=
      List.filter_append [_] (suppressFrom overlap k it dets)
    have hspared : spared (conflict overlap) it (live k (itc :: dets)) =
        spared (conflict overlap) it (live k [itc]) ++ spared (conflict overlap) it (live k dets) := by
      rw [spared, spared, spared, ← List.filter_append]
      exact congrArg _ (List.filter_append [itc] dets)
    rw [hrest, hspared, ih]
    refine congrArg (· ++ _) ?_
    by_cases hpos : 0 < itc.prob k
    · by_cases hover : overlap it.bbox itc.bbox = true
      · simp [suppressFrom, live, spared, conflict, Detection.clear, hpos, hpos.ne', hover]
      · simp [suppressFrom, live, spared, conflict, hpos, hpos.ne', hover]
    · by_cases hover : overlap it.bbox itc.bbox = true ∧ itc.prob k ≠ 0
      · simp [suppressFrom, live, spared, Detection.clear, hpos, hover.1, hover.2]
      · have hstays : suppressFrom overlap k it [itc] = [itc] := by
          simp only [suppressFrom, List.map_cons, List.map_nil]
          split_ifs with hzero hov
          · rfl
          · exact absurd ⟨hov, hzero⟩ hover
          · rfl
        simp [hstays, live, spared, hpos]

theorem suppressFrom_signs (it : Detection α β) {dets : List (Detection α β)}
    (h : dets.Pairwise fun a b => a.prob k < 0 → b.prob k ≤ 0) :
    (suppressFrom overlap k it dets).Pairwise fun a b => a.prob k < 0 → b.prob k ≤ 0 := by
  refine List.pairwise_map.mpr (h.imp fun {a b} hab => ?_)
  split_ifs <;> simp_all [Detection.clear]

/-- **Suppression.**  What is left is the greedy choice over the candidates, in their order.  A score below
zero, which no detection has, would have to stand behind every positive one. -/
theorem live_suppressAll (dets : List (Detection α β))
    (hsigns : dets.Pairwise fun a b => a.prob k < 0 → b.prob k ≤ 0) :
    live k (suppressAll overlap k dets) = greedy (conflict overlap) (live k dets) := by
  induction dets using suppressAll.induct (α := α) overlap k with
  | case1 =>
    rw [suppressAll]
    exact (greedy_nil _).symm
  | case2 it dets hzero ih =>
    have hdead (ds : List (Detection α β)) : live k (it :: ds) = live k ds := by
      simp [live, hzero]
    rw [suppressAll, if_pos hzero, hdead, hdead]
    exact ih (List.pairwise_cons.mp hsigns).2
  | case3 it dets hne ih =>
    obtain ⟨hhead, htail⟩ := List.pairwise_cons.mp hsigns
    rw [suppressAll, if_neg hne]
    have hih := ih (suppressFrom_signs it htail)
    rw [live_suppressFrom] at hih
    by_cases hpos : 0 < it.prob k
    · have hlive (ds : List (Detection α β)) : live k (it :: ds) = it :: live k ds :=
        List.filter_cons_of_pos (decide_eq_true hpos)
      rw [hlive, hlive, greedy_cons, hih]
    · -- nothing behind a score below zero is a candidate
      have hneg : it.prob k < 0 := lt_of_le_of_ne (not_lt.mp hpos) hne
      have hnone : live k dets = [] :=
        List.filter_eq_nil_iff.mpr fun d hd => by
          rw [decide_eq_true_eq, not_lt]
          exact hhead d hd hneg
      have hdead (ds : List (Detection α β)) : live k (it :: ds) = live k ds := by
        simp [live, hpos]
      rw [hdead, hdead, hih, hnone]
      rfl

/-! ### The published boxes -/

/-- The candidates in the order of the sort, and what is left of them. -/
def survivors (overlap : β → β → Bool) (dets : List (Detection α β)) : List (Detection α β) :=
  greedy (conflict overlap) (live 0 (sortDets 0 dets))

theorem runPostProcessing_eq (overlap : β → β → Bool) (clip : β → γ) (dets : List (Detection α β)) :
    runPostProcessing overlap clip dets =
      (survivors overlap dets).map fun d => ⟨d.prob 0, clip d.bbox⟩ := by
  have hlive : live 0 (suppressAll overlap 0 (sortDets 0 dets)) = survivors overlap dets :=
    live_suppressAll _ ((sortDets_sorted 0 dets).imp fun hab hneg => hab.trans hneg.le)
  rw [← hlive, runPostProcessing]
  show (suppressAll overlap 0 (sortDets 0 dets)).flatMap _ = _
  induction suppressAll overlap 0 (sortDets 0 dets) with
  | nil => rfl
  | cons d rest ih =>
    rw [List.flatMap_cons, ih]
    by_cases hpos : 0 < d.prob 0
    · simp [live, hpos]
    · simp [live, hpos]

theorem survivors_sorted (overlap : β → β → Bool) (dets : List (Detection α β)) :
    (survivors overlap dets).Pairwise fun a b => b.prob 0 ≤ a.prob 0 :=
  ((sortDets_sorted 0 dets).sublist List.filter_sublist).sublist (greedy_sublist _ _)

/-- What is published of a list of detections: the candidates, those with a score, split into kept and
lost ones; the kept do not overlap, every lost one overlaps a kept one with a score at least as high, and the
boxes are the first eight of the kept in the order of their scores, none of the others better. -/
structure Published (overlap : β → β → Bool) (clip : β → γ) (dets : List (Detection α β))
    (boxes : List (DetectionResult α γ)) (kept lost : List (Detection α β)) : Prop where
  split : (kept ++ lost).Perm (live 0 dets)
  apart : kept.Pairwise fun a b => overlap a.bbox b.bbox = false ∧ overlap b.bbox a.bbox = false
  covers : ∀ d ∈ lost, ∃ e ∈ kept, overlap e.bbox d.bbox = true ∧ d.prob 0 ≤ e.prob 0
  eight : boxes = (kept.take 8).map fun d => ⟨d.prob 0, clip d.bbox⟩
  order : boxes.Pairwise fun a b => b.normalisedVal ≤ a.normalisedVal
  best : ∀ a ∈ kept.take 8, ∀ b ∈ kept.drop 8, b.prob 0 ≤ a.prob 0
  top : ∀ d ∈ live 0 dets, d.prob 0 ≤ topScore boxes

/-- The first of a sorted list is the best. -/
theorem le_topScore {kept : List (Detection α β)} (clip : β → γ)
    (h : kept.Pairwise fun a b => b.prob 0 ≤ a.prob 0) {d : Detection α β} (hd : d ∈ kept) :
    d.prob 0 ≤ topScore ((kept.take 8).map fun d => (⟨d.prob 0, clip d.bbox⟩ : DetectionResult α γ)) := by
  cases kept with
  | nil => exact nomatch hd
  | cons e kept =>
    show d.prob 0 ≤ e.prob 0
    rcases List.mem_cons.mp hd with rfl | hd
    · exact le_rfl
    · exact (List.pairwise_cons.mp h).1 d hd

/-- **Suppression and selection.**  For every list of detections, every score type and every symmetric
overlap. -/
theorem nms_published (overlap : β → β → Bool) (hsymm : ∀ a b, overlap a b = overlap b a) (clip : β → γ)
    (dets : List (Detection α β)) :
    ∃ kept lost, Published overlap clip dets
      (publishedBoxes (runPostProcessing overlap clip dets)) kept lost := by
  have hsorted := survivors_sorted overlap dets
  have hboxes : publishedBoxes (runPostProcessing overlap clip dets) =
      ((survivors overlap dets).take 8).map fun d => ⟨d.prob 0, clip d.bbox⟩ := by
    rw [publishedBoxes, runPostProcessing_eq, List.map_take]
  have hlive : (live 0 (sortDets 0 dets)).Pairwise fun a b => b.prob 0 ≤ a.prob 0 :=
    (sortDets_sorted 0 dets).sublist List.filter_sublist
  obtain ⟨lost, hperm, hlost⟩ := greedy_covers (conflict overlap) hlive
  have hsplit : (survivors overlap dets ++ lost).Perm (live 0 dets) :=
    hperm.trans ((sortDets_perm 0 dets).filter _)
  refine ⟨survivors overlap dets, lost, hsplit, ?_, hlost, hboxes, ?_, ?_, fun d hd => ?_⟩
  · refine (greedy_pairwise (conflict overlap) _).imp fun {a b} hab => ⟨hab, ?_⟩
    exact (hsymm b.bbox a.bbox).trans hab
  · rw [hboxes]
    exact List.pairwise_map.mpr (hsorted.sublist (List.take_sublist _ _))
  · rw [← List.take_append_drop 8 (survivors overlap dets)] at hsorted
    exact fun a ha b hb => (List.pairwise_append.mp hsorted).2.2 a ha b hb
  · rw [hboxes]
    rcases List.mem_append.mp (hsplit.mem_iff.mpr hd) with hd | hd
    · exact le_topScore clip hsorted hd
    · obtain ⟨e, he, -, hle⟩ := hlost d hd
      exact hle.trans (le_topScore clip hsorted he)

/-- The boxes are those that the drawing loop over the same detections gives. -/
theorem runPostProcessing_drawn (overlap : β → β → Bool) (clip : β → BoxDraw.Box) (img : ByteMem.Mem)
    (dets : List (Detection α β)) :
    (runPostProcessing overlap clip dets).map DetectionResult.box =
      (BoxDraw.runPostProcessing img ((diounmsSort overlap 1 dets).map fun d =>
        ⟨decide (0 < d.prob 0), clip d.bbox⟩)).1 := by
  rw [BoxDraw.runPostProcessing_results, runPostProcessing]
  induction diounmsSort overlap 1 dets with
  | nil => rfl
  | cons d rest ih =>
    rw [List.flatMap_cons, List.map_append, ih]
    by_cases hpos : 0 < d.prob 0
    · simp [hpos]
    · simp [hpos]

end model

/-- Two faces, one of them found twice. -/
theorem nms_published_faces :
    ∃ kept lost, Published (fun a b : ℕ => a / 10 == b / 10) id
      [⟨31, fun _ => 60⟩, ⟨75, fun _ => 90⟩, ⟨38, fun _ => 80⟩]
      (publishedBoxes (runPostProcessing (fun a b : ℕ => a / 10 == b / 10) id
        [(⟨31, fun _ => 60⟩ : Detection ℕ ℕ), ⟨75, fun _ => 90⟩, ⟨38, fun _ => 80⟩])) kept lost :=
  nms_published (fun a b : ℕ => a / 10 == b / 10) (fun _ _ => Bool.beq_comm) id _

end IotcRa8p1.Vision.Nms
