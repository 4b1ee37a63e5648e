import Mathlib.Data.Int.Notation
import Mathlib.Data.Nat.Notation
import Mathlib.Tactic.SplitIfs

/-!
# The TFLM model object (`Model.cc`)

`arm::app::Model` owns the interpreter and remembers whether `Init` ever succeeded on it.  What
TensorFlow Lite Micro answers to one `Init` (a schema version, an allocator, a tensor allocation, the
tensors) is the argument `InitOutcome`; it decides everything `Init` does with the object.

Two habits of the code matter later: `Init` never clears `m_inited`, so an object keeps reporting
itself initialised through a later failed `Init`; and only the destructor resets it.
-/

namespace IotcRa8p1.Vision

/-- The shape and the size of a `TfLiteTensor`. -/
structure Tensor where
  dims : List ℤ
  bytes : ℕ
  deriving DecidableEq, Repr

/-- `m_pInterpreter`: the flatbuffer it was built on and its numbers of tensors. -/
structure Interp where
  flatbuffer : List UInt8
  inputsSize : ℕ
  outputsSize : ℕ
  deriving DecidableEq, Repr

/-- `arm::app::Model`. -/
structure TflmModel where
  inited : Bool
  interp : Option Interp
  input : List Tensor
  output : List Tensor
  isDataSigned : Bool
  deriving DecidableEq, Repr

/-- `Model::Model`. -/
def TflmModel.new : TflmModel := ⟨false, none, [], [], false⟩

/-- How far TFLM lets one `Init` get. -/
inductive InitOutcome where
  | badVersion
  | noAllocator
  | allocFailed (inputsSize outputsSize : ℕ)
  | tensors (inputs outputs : List Tensor) (signed : Bool)
  deriving DecidableEq, Repr

/-- `Model::Init` on a staged flatbuffer. -/
def TflmModel.init (m : TflmModel) (flatbuffer : List UInt8) : InitOutcome → TflmModel × Bool
  | .badVersion => (m, false)
  | .noAllocator => (m, false)
  | .allocFailed nIn nOut => ({ m with interp := some ⟨flatbuffer, nIn, nOut⟩ }, false)
  | .tensors inputs outputs signed =>
    let m := { m with
      interp := some ⟨flatbuffer, inputs.length, outputs.length⟩, input := inputs, output := outputs }
    if inputs = [] ∨ outputs = [] then (m, false)
    else ({ m with isDataSigned := signed, inited := true }, true)

/-- `GetNumInputs`, `GetNumOutputs`: zero without an interpreter. -/
def TflmModel.getNumInputs (m : TflmModel) : ℕ := (m.interp.map Interp.inputsSize).getD 0

def TflmModel.getNumOutputs (m : TflmModel) : ℕ := (m.interp.map Interp.outputsSize).getD 0

/-- `GetInputTensor`. -/
def TflmModel.getInputTensor (m : TflmModel) (index : ℕ) : Option Tensor :=
  if index < m.getNumInputs then m.input[index]? else none

/-- `model_kind_t`. -/
inductive ModelKind where
  | detector
  | classifier
  deriving DecidableEq, Repr

/-- The two shapes `prv_model_apply` accepts. -/
def modelKind (h w c : ℤ) (numOutputs : ℕ) : Option ModelKind :=
  if h = 192 ∧ w = 192 ∧ c = 1 ∧ 2 = numOutputs then some .detector
  else if 1 = numOutputs ∧ (c = 1 ∨ c = 3) ∧ (32 ≤ h ∧ h ≤ 224) ∧ (32 ≤ w ∧ w ≤ 224) then
    some .classifier
  else none

/-- The family of a loaded model by its input tensor 0, `none` where `prv_model_apply` rejects it. -/
def TflmModel.shapeKind (m : TflmModel) : Option ModelKind :=
  match m.getInputTensor 0 with
  | none => none
  | some t =>
    match t.dims with
    | [_, h, w, c] => modelKind h w c m.getNumOutputs
    | _ => none

/-- A face detector: 192x192x1 and two outputs. -/
def detectorOutcome : InitOutcome :=
  .tensors [⟨[1, 192, 192, 1], 36864⟩] [⟨[1, 6, 6, 18], 648⟩, ⟨[1, 12, 12, 18], 2592⟩] true

/-! ### One `Init`, by its outcome -/

/-- `Init` returns true. -/
def InitOutcome.initOk : InitOutcome → Bool
  | .tensors inputs outputs _ => !inputs.isEmpty && !outputs.isEmpty
  | _ => false

/-- The family `prv_model_apply` finds after this `Init`. -/
def InitOutcome.kind : InitOutcome → Option ModelKind
  | .tensors (t :: _) outputs _ =>
    match t.dims with
    | [_, h, w, c] => modelKind h w c outputs.length
    | _ => none
  | _ => none

/-- `Init` succeeds but the shape is rejected. -/
def InitOutcome.rejected (o : InitOutcome) : Bool := o.initOk && o.kind.isNone

theorem modelKind_numOutputs {h w c : ℤ} {n : ℕ} {k : ModelKind} (hk : modelKind h w c n = some k) :
    n = 2 ∨ n = 1 := by
  rw [modelKind] at hk
  split_ifs at hk with h1 h2
  · exact Or.inl h1.2.2.2.symm
  · exact Or.inr h2.1.symm

/-- A family is found only where `Init` succeeded. -/
theorem InitOutcome.initOk_of_kind {o : InitOutcome} {k : ModelKind} (h : o.kind = some k) :
    o.initOk = true := by
  cases o with
  | badVersion => contradiction
  | noAllocator => contradiction
  | allocFailed nIn nOut => contradiction
  | tensors inputs outputs signed =>
    cases inputs with
    | nil => contradiction
    | cons t ts =>
      simp only [InitOutcome.kind] at h
      split at h
      · have hn := modelKind_numOutputs h
        cases outputs with
        | nil => simp at hn
        | cons u us => rfl
      · contradiction

/-- Input tensor 0 of the tensors TFLM returned. -/
def InitOutcome.mainInput : InitOutcome → Option Tensor
  | .tensors (t :: _) _ _ => some t
  | _ => none

variable (m : TflmModel) (flatbuffer : List UInt8) (o : InitOutcome)

theorem TflmModel.init_snd : (m.init flatbuffer o).2 = o.initOk := by
  cases o with
  | badVersion => rfl
  | noAllocator => rfl
  | allocFailed nIn nOut => rfl
  | tensors inputs outputs signed =>
    cases inputs <;> cases outputs <;> rfl

/-- An object is initialised after `Init` if it was before or `Init` succeeded. -/
theorem TflmModel.init_inited : (m.init flatbuffer o).1.inited = (o.initOk || m.inited) := by
  cases o with
  | badVersion => rfl
  | noAllocator => rfl
  | allocFailed nIn nOut => rfl
  | tensors inputs outputs signed =>
    cases inputs <;> cases outputs <;> rfl

/-- What a successful `Init` leaves. -/
theorem TflmModel.init_of_ok (h : o.initOk = true) :
    (m.init flatbuffer o).1.shapeKind = o.kind ∧
      (m.init flatbuffer o).1.interp.map Interp.flatbuffer = some flatbuffer ∧
      (m.init flatbuffer o).1.getInputTensor 0 = o.mainInput := by
  cases o with
  | badVersion => contradiction
  | noAllocator => contradiction
  | allocFailed nIn nOut => contradiction
  | tensors inputs outputs signed =>
    cases inputs with
    | nil => contradiction
    | cons t ts =>
      cases outputs with
      | nil => contradiction
      | cons u us => exact ⟨rfl, rfl, rfl⟩

/-- A fresh object is initialised exactly by a successful `Init`. -/
theorem TflmModel.init_new_inited : (TflmModel.new.init flatbuffer o).1.inited = o.initOk := by
  rw [TflmModel.init_inited]
  exact Bool.or_false _

/-- An `Init` on the flatbuffer the interpreter already stands on leaves it there. -/
theorem TflmModel.init_flatbuffer {m : TflmModel}
    (h : m.interp.map Interp.flatbuffer = some flatbuffer) :
    (m.init flatbuffer o).1.interp.map Interp.flatbuffer = some flatbuffer := by
  cases o with
  | badVersion => exact h
  | noAllocator => exact h
  | allocFailed nIn nOut => rfl
  | tensors inputs outputs signed => cases inputs <;> cases outputs <;> rfl

end IotcRa8p1.Vision
