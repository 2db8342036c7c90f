import DocModel.Markup
import DocModel.Value

/-!
# Examples and benchmarks

What the `@examples` and `@benchmarks` tags of a comment hold. An example is a piece of code with
its expected value and with the way in which it is checked: by a handler, by comparison, or not at
all because it is no proper code. A benchmark is a group of implementations that share a name.
Examples, benchmarks and their cases are numbered from one through all tags of a comment.
-/

namespace DocModel

/-- **How an example is checked.** -/
inductive Check where
  /-- By the test of the handler with this number. -/
  | test (handler : Nat)
  /-- With the template of the handler with this number, and the data for it. -/
  | template (handler : Nat) (template : Value) (data : List (Text × Value))
  /-- By comparing the actual value with the expected one. -/
  | comparison
  /-- Not at all: one of its sides is no proper code. -/
  | broken

/-- **An example.** -/
structure Example where
  /-- Its number. -/
  id : Nat
  /-- The line of the source on which it stands, in the count in which the first line of its comment
  was given. -/
  line : Int
  /-- The code. -/
  actual : Text
  /-- The expected value. -/
  expected : Text
  /-- Whether the expected value goes on over several lines. -/
  multiline : Bool
  /-- How it is checked. -/
  check : Check

/-- Whether an example cannot be checked because it is no proper code. -/
def Example.isBroken (e : Example) : Bool :=
  match e.check with
  | .broken => true
  | _ => false

/-- The examples of one tag. -/
structure ExampleBlock where
  /-- The text of the tag. -/
  code : Text
  /-- The code before the first example. -/
  setup : Text
  /-- The examples. -/
  examples : List Example

/-- **The examples of a comment.** -/
structure Examples where
  /-- The examples tag by tag. -/
  blocks : List ExampleBlock

namespace Examples

/-- All examples. -/
def items (e : Examples) : List Example := e.blocks.flatMap (·.examples)

/-- The texts of all tags. -/
def code (e : Examples) : Text := Text.join "\n\n" (e.blocks.map (·.code))

/-- The setup of all tags that have one. -/
def setup (e : Examples) : Text :=
  Text.join "\n" ((e.blocks.map (·.setup)).filter (!·.isEmpty))

end Examples

/-- One implementation in a benchmark. -/
structure BenchmarkCase where
  /-- Its number. -/
  id : Nat
  /-- The code. -/
  impl : Text
  /-- The name of the benchmark. -/
  name : Text
  /-- What the implementation is called. -/
  label : Text
  deriving DecidableEq

/-- **A benchmark.** -/
structure Benchmark where
  /-- Its number. -/
  id : Nat
  /-- Its name. -/
  name : Text
  /-- The implementations. -/
  cases : List BenchmarkCase
  deriving DecidableEq

/-- The benchmarks of one tag. -/
structure BenchmarkBlock where
  /-- The text of the tag. -/
  code : Text
  /-- The code before the first case. -/
  setup : Text
  /-- The benchmarks. -/
  benchmarks : List Benchmark
  deriving DecidableEq

/-- **The benchmarks of a comment.** -/
structure Benchmarks where
  /-- The benchmarks tag by tag. -/
  blocks : List BenchmarkBlock
  deriving DecidableEq

namespace Benchmarks

/-- All benchmarks. -/
def items (b : Benchmarks) : List Benchmark := b.blocks.flatMap (·.benchmarks)

/-- The cases of the first benchmark. -/
def cases (b : Benchmarks) : List BenchmarkCase :=
  match b.items with
  | [] => []
  | first :: _ => first.cases

end Benchmarks

end DocModel
