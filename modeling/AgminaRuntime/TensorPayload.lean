import AgminaRuntime.Backend
import AgminaRuntime.PythonValues

/-!
# Tensors in JSON

`tensor_check` is applied to the tensors that go out and to those that come
back: the shape fits the flat data, and every entry is in the range of the
declared type.
-/

namespace AgminaRuntime

open Json (Value)

/-- The tensor types that JSON carries. -/
inductive TensorType
  | fp32 | fp64 | int32 | int64 | uint8 | bool
  deriving DecidableEq

namespace TensorType

def text : TensorType → String
  | fp32 => "FP32"
  | fp64 => "FP64"
  | int32 => "INT32"
  | int64 => "INT64"
  | uint8 => "UINT8"
  | bool => "BOOL"

def all : List TensorType := [fp32, fp64, int32, int64, uint8, bool]

/-- The type with a given name. -/
def parse (points : List Json.Point) : Option TensorType :=
  all.find? fun dtype => field dtype.text = points

/-- The range of an integer type. -/
def range : TensorType → Option (Int × Int)
  | uint8 => some (0, 255)
  | int32 => some (-2 ^ 31, 2 ^ 31 - 1)
  | int64 => some (-2 ^ 63, 2 ^ 63 - 1)
  | _ => none

end TensorType

/-- The bound of the entries of a tensor. -/
def maxTensorSize : Nat := 1000000

/-- `abs(value) > 3.4028234663852886e38` -/
def beyondSingleInt (value : Int) : Bool := 2 ^ 128 - 2 ^ 104 < value.natAbs

section

variable {φ : Type}

/-- `type(n) is int and n >= 1` for the entries of a shape. -/
def tensorDims : List (Value φ) → Option (List Nat)
  | [] => some []
  | .int size :: rest =>
      if 1 ≤ size then (tensorDims rest).map fun sizes => size.toNat :: sizes else none
  | _ :: _ => none

/-- `dtype not in {...}`; a list or a dict cannot be looked up in a set. -/
def tensorType (value : Value φ) : Except PyExc TensorType :=
  match value with
  | .str points =>
      match TensorType.parse points with
      | some dtype => .ok dtype
      | none => .error (.valueError "Unsupported JSON tensor dtype")
  | .arr _ | .obj _ => .error .typeError
  | _ => .error (.valueError "Unsupported JSON tensor dtype")

variable [PyFloats φ]

/-- One entry of a tensor. -/
def tensorEntry (dtype : TensorType) (value : Value φ) : Except PyExc Unit :=
  match dtype with
  | .bool =>
      match value with
      | .bool _ => .ok ()
      | _ => .error (.valueError "Boolean tensor required")
  | .fp32 | .fp64 =>
      match value with
      | .int value =>
          if isFloatable value then
            if dtype = .fp32 ∧ beyondSingleInt value then
              .error (.valueError "Finite numeric tensor required")
            else .ok ()
          else .error .overflowError
      | .float value =>
          if !Json.Floats.finite value || (dtype = .fp32 && PyFloats.beyondSingle value) then
            .error (.valueError "Finite numeric tensor required")
          else .ok ()
      | _ => .error (.valueError "Finite numeric tensor required")
  | .int32 | .int64 | .uint8 =>
      match value with
      | .int value =>
          if dtype.range.any fun (low, high) => low ≤ value && value ≤ high then .ok ()
          else .error (.valueError "Integer dtype/range mismatch")
      | _ => .error (.valueError "Integer dtype/range mismatch")

def tensorEntries (dtype : TensorType) : List (Value φ) → Except PyExc Unit
  | [] => .ok ()
  | value :: rest => do
      tensorEntry dtype value
      tensorEntries dtype rest

/-- `tensor_check(tensor)` -/
def tensorCheck (tensor : Value φ) : Except PyExc Unit :=
  match tensor with
  | .obj members =>
      if Dict.hasExactly members ["name", "shape", "datatype", "data"] then
        match Dict.get members "name" with
        | .str (_ :: _) =>
            match Dict.get members "shape" with
            | .arr shape =>
                if 1 ≤ shape.length ∧ shape.length ≤ 8 then
                  match tensorDims shape with
                  | some sizes =>
                      match Dict.get members "data" with
                      | .arr data =>
                          if sizes.prod ≤ maxTensorSize ∧ data.length = sizes.prod then do
                            let dtype ← tensorType (Dict.get members "datatype")
                            tensorEntries dtype data
                          else .error (.valueError "Tensor size mismatch/bound")
                      | _ => .error (.valueError "Tensor size mismatch/bound")
                  | none => .error (.valueError "Invalid tensor dimensions")
                else .error (.valueError "Invalid tensor dimensions")
            | _ => .error (.valueError "Invalid tensor dimensions")
        | _ => .error (.valueError "Tensor name required")
      else .error (.valueError "Tensor requires name/shape/datatype/flat data")
  | _ => .error (.valueError "Tensor requires name/shape/datatype/flat data")

/-- `tensor_check` for each tensor of a list. -/
def tensorChecks : List (Value φ) → Except PyExc Unit
  | [] => .ok ()
  | tensor :: rest => do
      tensorCheck tensor
      tensorChecks rest

end

end AgminaRuntime
