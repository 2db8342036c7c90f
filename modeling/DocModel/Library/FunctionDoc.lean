import DocModel.Example.Basic
import DocModel.Name

/-!
# Documented functions

What the documentation says about a function: its name, where it belongs, its parameters and return
value, its examples and benchmarks, and its source. Two functions can be documented in the same
words, so each doc carries a number that tells it apart.
-/

namespace DocModel

/-- A documented parameter, or a property of a type. -/
structure ParameterInfo where
  /-- Its name, empty if it has none. -/
  name : Text
  /-- The display form of its type. -/
  type : Text
  /-- Its description. -/
  description : Text
  /-- Whether it can be left out. -/
  optional : Bool
  /-- The value it has then. -/
  default : Option Text
  deriving DecidableEq

/-- A documented return value. -/
structure ReturnInfo where
  /-- The display form of its type. -/
  type : Text
  /-- Its description. -/
  description : Text
  deriving DecidableEq

/-- **A documented function.** -/
structure FunctionDoc extends QualifiedName where
  /-- The place of the doc among all docs of a source, which tells it apart from every other. -/
  number : Nat
  /-- The description, as pages show it. -/
  description : Text := []
  /-- The parameters. -/
  params : List ParameterInfo := []
  /-- The return value, if it is documented. -/
  returns : Option ReturnInfo := none
  /-- Whether the function constructs objects. -/
  isConstructor : Bool := false
  /-- Whether it belongs to its namespace and not to the instances of it. -/
  isStatic : Bool := false
  /-- Whether it is marked as public. -/
  isPublic : Bool := false
  /-- Whether it is marked as private. -/
  isPrivate : Bool := false
  /-- Whether it is declared at the top of the source. -/
  isGlobal : Bool := false
  /-- The examples. -/
  examples : Examples := ⟨[]⟩
  /-- The benchmarks. -/
  benchmarks : Benchmarks := ⟨[]⟩
  /-- The titles of all tags, in the order of the comment. -/
  tags : List Text := []
  /-- The source of the function. -/
  source : Text := []
  /-- The line on which the function starts, counted from one. -/
  line : Nat := 0
  /-- Whether the function is left out of the documentation. -/
  excluded : Bool := false

namespace FunctionDoc

/-- Whether there is anything to show about parameters or the return value. -/
def hasSignature (d : FunctionDoc) : Bool := !d.params.isEmpty || d.returns.isSome

/-- The display signature. -/
def signature (d : FunctionDoc) : Text :=
  DocModel.signature d.name d.shortName d.owner? (d.params.map (·.name))

/-- Whether there are examples. -/
def hasExamples (d : FunctionDoc) : Bool := !d.examples.items.isEmpty

/-- Whether there are benchmarks. -/
def hasBenchmarks (d : FunctionDoc) : Bool := !d.benchmarks.items.isEmpty

/-- Docs of which those without any of the given tags are marked as left out. Without tags nothing
changes. -/
def restrictTo (tags : List Text) (docs : List FunctionDoc) : List FunctionDoc :=
  if tags.isEmpty then docs
  else
    docs.map fun d =>
      if d.tags.any fun t => tags.contains t then d else { d with excluded := true }

end FunctionDoc

end DocModel
