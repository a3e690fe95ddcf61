import NetPack.Tensor.Basic

/-!
# Activations
-/

namespace NetPack

/-- An element-wise activation. -/
inductive Activation where
  /-- Negative values become zero. -/
  | relu
  /-- Values are cut to the range from zero to six. -/
  | relu6
  /-- The logistic function. -/
  | sigmoid
  /-- The value weighted by a cut and shifted copy of itself. -/
  | hardSwish
deriving DecidableEq, Inhabited

namespace Activation

/-- The name used in every text. -/
def name : Activation → String
  | relu => "relu"
  | relu6 => "relu6"
  | sigmoid => "sigmoid"
  | hardSwish => "hard_swish"

/-- All activations. -/
def all : List Activation := [relu, relu6, sigmoid, hardSwish]

/-- The activation of a name. -/
def ofName? (s : String) : Option Activation := all.find? fun a => a.name == s

variable {α : Type} [Scalar α]

/-- The activation of one value. -/
def apply (a : Activation) (x : α) : α :=
  let six := Scalar.count 6
  match a with
  | relu => Scalar.max x 0
  | relu6 => Scalar.clamp 0 six x
  | sigmoid => 1 / (1 + Scalar.exp (-x))
  | hardSwish => x * Scalar.clamp 0 six (x + Scalar.count 3) / six

end Activation

namespace Kernel

variable {α : Type} [Scalar α]

/-- Applies an activation to every element, into a tensor of the shape of `output`. -/
def activation (a : Activation) (x output : Tensor α) : Except TensorError (Tensor α) :=
  if x.shape ≠ output.shape then .error (.shapes "activation" x.shape output.shape)
  else .ok { output with data := x.data.map a.apply }

end Kernel

end NetPack
