import IotcRa8p1.App.Poll
import IotcRa8p1.Vision.System

/-!
# What the unwrap of a push moves (`iotc_app.c`, `prv_model_push_execute`)

A content that starts with a zip signature either ends like a push whose download failed, or its one entry
moves to the front.  The bound check adds an untrusted 32-bit size to the data offset in a `size_t` of 32
bits: a sum from `2 ^ 32` on wraps, and what is moved then lies behind the download.
-/

namespace IotcRa8p1.Vision.ZipUnwrap

open ByteMem ModelStore App App.Poll

/-- The fields of the local header. -/
def zipMethod (buf : Mem) : ℕ := leNat (slice buf 8 2)

def zipCsize (buf : Mem) : ℕ := leNat (slice buf 18 4)

def zipDataOff (buf : Mem) : ℕ := 30 + leNat (slice buf 26 2) + leNat (slice buf 28 2)

/-- The `memmove` of the unwrap: the source offset and the number of bytes. -/
def unwrapMove (buf : Mem) (got : ℕ) : Option (ℕ × ℕ) :=
  if 34 ≤ got ∧ slice buf 0 4 = zipLocalMagic then
    if zipMethod buf ≠ 0 ∨ zipCsize buf = 0 ∨ got < (zipDataOff buf + zipCsize buf) % 2 ^ 32 then none
    else some (zipDataOff buf, zipCsize buf)
  else none

theorem unwrapZip_of_move {buf : Mem} {got off n : ℕ} (h : unwrapMove buf got = some (off, n)) :
    unwrapZip buf got = .ok (memcpy buf 0 buf off n, n) := by
  rw [unwrapMove] at h
  split_ifs at h with hzip hbad
  obtain ⟨rfl, rfl⟩ := Prod.mk.inj (Option.some.inj h)
  rw [unwrapZip, if_pos hzip]
  exact if_neg hbad

theorem unwrapZip_of_no_move {buf : Mem} {got : ℕ} (h : unwrapMove buf got = none) :
    (unwrapZip buf got = .ok (buf, got) ∧ ¬ (34 ≤ got ∧ slice buf 0 4 = zipLocalMagic)) ∨
      ∃ reason, unwrapZip buf got = .error reason := by
  rw [unwrapMove] at h
  split_ifs at h with hzip hbad
  · refine Or.inr ⟨"zip must contain one STORED .iotv entry", ?_⟩
    rw [unwrapZip, if_pos hzip]
    exact if_pos hbad
  · exact Or.inl ⟨if_neg hzip, hzip⟩

/-! ### The rest of the push -/

/-- The transfer task from the unwrap to the ack, with what the unwrap and the request answer. -/
def afterDownload (s : St) (p : Push) (v : State) (buf : Mem) (got : ℕ) : St :=
  match unwrapZip buf got with
  | .error _ => Poll.xferStep s (.unwrap p) false
  | .ok (b, n) =>
    Poll.xferStep (Poll.xferStep s (.unwrap p) true) (.swap p)
      (decide ((faceDetectionRequestSwap { v with pending := b } none n).2 = none))

/-- A push whose download failed. -/
def failedPush (s : St) (p : Push) : St := Poll.xferStep s (.lostHeap p) false

/-- A zip is rejected like any failed push, or the bytes of its entry move to the front and lie in the
download; a well-formed entry is unwrapped to its data. -/
structure UnwrapExact (s : St) (p : Push) (v : State) (buf : Mem) (got : ℕ) : Prop where
  zip : 4 ≤ got → slice buf 0 4 = zipLocalMagic →
    (unwrapMove buf got = none ∧ afterDownload s p v buf got = failedPush s p ∧
      (pushExecute v buf got).1 = { v with pending := buf }) ∨
    (unwrapZip buf got = .ok (memcpy buf 0 buf (zipDataOff buf) (zipCsize buf), zipCsize buf) ∧
      zipDataOff buf + zipCsize buf ≤ got)
  stored : ∀ data, StoredZip data (slice buf 0 got) →
    ∃ b, unwrapZip buf got = .ok (b, data.length) ∧ slice b 0 data.length = data

/-- No sum wraps to a value the check lets pass, a well-formed entry is not empty, and its file has the
length the unwrap looks for. -/
structure Unwraps (buf : Mem) (got : ℕ) : Prop where
  sum : 34 ≤ got → slice buf 0 4 = zipLocalMagic → zipMethod buf = 0 →
    zipDataOff buf + zipCsize buf < 2 ^ 32 ∨ got < (zipDataOff buf + zipCsize buf) % 2 ^ 32
  stored : ∀ data, StoredZip data (slice buf 0 got) → data ≠ [] ∧ 34 ≤ got

theorem zipDataOff_lt (buf : Mem) : zipDataOff buf < 2 ^ 32 := by
  have hword : ∀ off, leNat (slice buf off 2) < 2 ^ 16 := by
    intro off
    have h0 := (buf off).toNat_lt
    have h1 := (buf (off + 1)).toNat_lt
    simp only [slice, List.range_succ, List.range_zero, List.nil_append, List.cons_append,
      List.map_cons, List.map_nil, leNat, Nat.add_zero]
    omega
  have hn := hword 26
  have hx := hword 28
  rw [zipDataOff]
  omega

/-- A zip too short for the unwrap is refused by the validation. -/
theorem iotvValidate_zip {buf : Mem} (got : ℕ) (h : slice buf 0 4 = zipLocalMagic) :
    iotvValidate buf got ≠ none := by
  intro hv
  have hmagic := ((iotvValidate_eq_none_iff buf got).mp hv).magic
  simp only [iotvHdr, h] at hmagic
  exact absurd hmagic (by decide)

/-- Without a move the push of a zip ends like a failed download. -/
theorem push_of_no_move (s : St) (p : Push) (v : State) {buf : Mem} {got : ℕ}
    (hmagic : slice buf 0 4 = zipLocalMagic) (h : unwrapMove buf got = none) :
    afterDownload s p v buf got = failedPush s p ∧
      (pushExecute v buf got).1 = { v with pending := buf } := by
  obtain ⟨hun, _⟩ | ⟨reason, hun⟩ := unwrapZip_of_no_move h
  · cases hv : iotvValidate buf got with
    | none => exact absurd hv (iotvValidate_zip got hmagic)
    | some reason =>
      have hrefused : faceDetectionRequestSwap { v with pending := buf } none got =
          ({ v with pending := buf }, some reason) := by
        simp only [faceDetectionRequestSwap, Option.getD_none, hv]
      constructor
      · simp only [afterDownload, hun, hrefused, reduceCtorEq, decide_false]
        rfl
      · simp only [pushExecute, hun, hrefused]
  · constructor
    · simp only [afterDownload, hun]
      rfl
    · simp only [pushExecute, hun]

/-- **Zip unwrap.** -/
theorem unwrapExact_iff (s : St) (p : Push) (v : State) (buf : Mem) {got : ℕ}
    (hgot : got ≤ modelMaxBlob) : UnwrapExact s p v buf got ↔ Unwraps buf got := by
  have hcap : got < 2 ^ 32 := by
    rw [modelMaxBlob] at hgot
    omega
  have hlen : (slice buf 0 got).length = got := slice_length buf 0 got
  have hfields : ∀ data, StoredZip data (slice buf 0 got) → ∃ off, StoredFields buf got data off := by
    intro data hdata
    have hshort := hdata.length_le
    rw [hlen] at hshort
    obtain ⟨off, hf⟩ := hdata.fields (by rw [hlen]) (by omega)
    rw [hlen] at hf
    exact ⟨off, hf⟩
  constructor
  · intro h
    constructor
    · intro hgot34 hmagic hmethod
      by_contra hwrap
      obtain ⟨hbig, hpass⟩ := not_or.mp hwrap
      have hoff := zipDataOff_lt buf
      have hmove : unwrapMove buf got = some (zipDataOff buf, zipCsize buf) := by
        rw [unwrapMove, if_pos ⟨hgot34, hmagic⟩, if_neg (by omega)]
      obtain ⟨hnone, _⟩ | ⟨_, hin⟩ := h.zip (by omega) hmagic
      · rw [hmove] at hnone
        contradiction
      · omega
    · intro data hdata
      obtain ⟨off, hf⟩ := hfields data hdata
      obtain ⟨b, hun, _⟩ := h.stored data hdata
      have hfits := hf.fits
      have hoff := hf.dataOff
      have hgot34 : 34 ≤ got := by
        by_contra hshort
        rw [unwrapZip, if_neg (by omega)] at hun
        obtain ⟨_, hgotlen⟩ := Prod.mk.inj (Except.ok.inj hun)
        omega
      refine ⟨?_, hgot34⟩
      rintro rfl
      have hcsize := hf.csize
      simp only [unwrapZip, if_pos (And.intro hgot34 hf.magic), hcsize, List.length_nil] at hun
      rw [if_pos (Or.inr (Or.inl trivial))] at hun
      contradiction
  · intro h
    constructor
    · intro _ hmagic
      cases hmove : unwrapMove buf got with
      | none => exact Or.inl ⟨rfl, push_of_no_move s p v hmagic hmove⟩
      | some m =>
        right
        have hmove' := hmove
        rw [unwrapMove] at hmove'
        split_ifs at hmove' with hzip hbad
        obtain rfl := Option.some.inj hmove'
        refine ⟨unwrapZip_of_move hmove, ?_⟩
        simp only [not_or, not_not, not_lt] at hbad
        obtain ⟨hmethod, _, hpass⟩ := hbad
        obtain hsum | hsum := h.sum hzip.1 hmagic hmethod
        · rwa [Nat.mod_eq_of_lt hsum] at hpass
        · omega
    · intro data hdata
      obtain ⟨off, hf⟩ := hfields data hdata
      obtain ⟨hne, hgot34⟩ := h.stored data hdata
      have hfits := hf.fits
      refine ⟨_, hf.unwrap hgot34 hne (by omega), ?_⟩
      rw [slice_memcpy, hf.entry]

/-- A local header with a name of one byte, and four bytes of data. -/
def sampleZip (csize : ℕ) : List UInt8 :=
  zipLocalMagic ++ List.replicate 14 0 ++ leBytes 4 csize ++ [0, 0, 0, 0, 1, 0, 0, 0, 0x61, 1, 2, 3, 4]

theorem unwrapExact_sample :
    UnwrapExact Poll.boot ⟨none, none⟩ (powerOn (fun _ => 0) (fun _ => 0) fun _ => 0)
      (ofList (sampleZip 4)) 35 ↔ Unwraps (ofList (sampleZip 4)) 35 :=
  unwrapExact_iff _ _ _ _ (by decide)

/-- A size that brings the sum to `2 ^ 32 + 5`. -/
theorem unwrapExact_wraps :
    ¬ ∀ (s : St) (p : Push) (v : State) (buf : Mem) (got : ℕ), got ≤ modelMaxBlob →
      UnwrapExact s p v buf got := by
  intro h
  have hzip := (h Poll.boot ⟨none, none⟩ (powerOn (fun _ => 0) (fun _ => 0) fun _ => 0)
    (ofList (sampleZip 0xFFFFFFE6)) 35 (by decide)).zip (by decide) (by decide +kernel)
  obtain ⟨hnone, _⟩ | ⟨_, hin⟩ := hzip
  · exact absurd hnone (by decide +kernel)
  · exact absurd hin (by decide +kernel)

end IotcRa8p1.Vision.ZipUnwrap
