import DocModel.Comment.Doclet
import DocModel.Directive.Block
import DocModel.Example.Basic
import DocModel.Handler.Defaults
import DocModel.Syntax.Tree

/-!
# Building examples and benchmarks

The tags of a doclet become examples and benchmarks. The lines of an example are counted in the
whole source: a comment starts on some line, the description of a tag so many lines later, and the
example again so many lines later.
-/

namespace DocModel

/-- **What is needed to build examples**: the handlers, in the order in which they are tried, those
among them that were given and so make a bare comment an example, and the parser that tells
proper code. -/
structure ExampleBuilder where
  /-- All handlers. -/
  handlers : List Handler
  /-- The handlers that were given. -/
  custom : List Handler
  /-- The parser of the script language. -/
  parse : ScriptParser

namespace ExampleBuilder

/-- Whether a bare comment is an example; if the given handlers cannot tell, it is none. -/
def recognises (b : ExampleBuilder) (right : Text) : Bool :=
  (Handler.anyFinds b.custom right).toOption.getD false

/-- Puts a line with a bare comment to the given handlers, to see whether they can tell. -/
def probe (b : ExampleBuilder) (line : Text) : Except Handler.Fault Unit :=
  match Directive.sides? line with
  | some s => if s.bare then (Handler.anyFinds b.custom s.right).map fun _ => () else .ok ()
  | none => .ok ()

/-- The block in the text of a tag, or the first fault that its bare comments meet. -/
def readBlock (b : ExampleBuilder) (text : Text) : Except Handler.Fault Directive.Block := do
  (Text.lines text).forM b.probe
  return Directive.Block.parse b.recognises text

/-- **How an example is checked**: by the first handler that finds something in the expected value
or, without one, by comparison, if both sides are proper code. -/
def check (b : ExampleBuilder) (actual expected : Text) : Except Handler.Fault Check := do
  match ← Handler.find b.handlers expected with
  | some (index, h, m) =>
    if h.test.isNull then return .template index h.template (← h.buildData m)
    else return .test index
  | none =>
    if b.parse.acceptsProgram actual && b.parse.acceptsExpression expected then return .comparison
    else return .broken

/-- The examples that some pairs make, numbered from `next`. The block starts on the line `start` of
the source. -/
def examplesOfPairs (b : ExampleBuilder) (start : Int) :
    Nat → List Directive.Pair → Except Handler.Fault (List Example)
  | _, [] => .ok []
  | next, p :: ps => do
    let check ← b.check p.left p.right
    let more ← b.examplesOfPairs start (next + 1) ps
    return ⟨next, start + p.line, p.left, p.right, p.multiline, check⟩ :: more

/-- The blocks of examples in some tags, with the examples numbered from `next`. The comment starts
on the line `start` of the source. -/
def exampleBlocks (b : ExampleBuilder) (start : Int) :
    Nat → List Tag → Except Handler.Fault (List ExampleBlock)
  | _, [] => .ok []
  | next, tag :: tags => do
    let block ← b.readBlock tag.description
    let examples ← b.examplesOfPairs (start + tag.descriptionLine) next block.pairs
    let more ← b.exampleBlocks start (next + block.pairs.length) tags
    return ⟨block.content, block.preamble, examples⟩ :: more

/-- **The examples of a doclet** whose comment starts on the line `start` of the source. -/
def examples (b : ExampleBuilder) (doclet : Doclet) (start : Int) :
    Except Handler.Fault Examples :=
  return ⟨← b.exampleBlocks start 1 (doclet.findTags ["examples", "example"])⟩

/-! ## Benchmarks -/

/-- What an implementation is called that has no label. -/
def defaultLabel : Text := "Ops/second"

/-- The case that a pair describes: its right side is the name of the benchmark and, after a hyphen,
the label. -/
def caseOfPair (id : Nat) (p : Directive.Pair) : BenchmarkCase :=
  match Text.cut? " - " p.right with
  | some (name, label) => ⟨id, p.left, name, if label.isEmpty then defaultLabel else label⟩
  | none => ⟨id, p.left, p.right, defaultLabel⟩

/-- The cases that some pairs describe, numbered from `next`. -/
def casesOfPairs : Nat → List Directive.Pair → List BenchmarkCase
  | _, [] => []
  | next, p :: ps => caseOfPair next p :: casesOfPairs (next + 1) ps

/-- Benchmarks with one more case, which opens a new benchmark if none has its name; that one gets
the number `next`. -/
def addCase (next : Nat) (c : BenchmarkCase) : List Benchmark → List Benchmark
  | [] => [⟨next, c.name, [c]⟩]
  | b :: bs =>
    if b.name = c.name then { b with cases := b.cases ++ [c] } :: bs else b :: addCase next c bs

/-- The benchmarks that some cases make up, numbered from `next` in the order of their first
cases. -/
def groupCases (next : Nat) (cases : List BenchmarkCase) : List Benchmark :=
  cases.foldl (fun bs c => addCase (next + bs.length) c bs) []

/-- The blocks of benchmarks in some tags; cases are numbered from `nextCase` and benchmarks from
`next`. -/
def benchmarkBlocks (b : ExampleBuilder) :
    Nat → Nat → List Tag → Except Handler.Fault (List BenchmarkBlock)
  | _, _, [] => .ok []
  | nextCase, next, tag :: tags => do
    let block ← b.readBlock tag.description
    let benchmarks := groupCases next (casesOfPairs nextCase block.pairs)
    let more ←
      b.benchmarkBlocks (nextCase + block.pairs.length) (next + benchmarks.length) tags
    return ⟨block.content, block.preamble, benchmarks⟩ :: more

/-- **The benchmarks of a doclet.** -/
def benchmarks (b : ExampleBuilder) (doclet : Doclet) : Except Handler.Fault Benchmarks :=
  return ⟨← b.benchmarkBlocks 1 1 (doclet.findTags ["benchmarks"])⟩

end ExampleBuilder

end DocModel
