import DocModel.Library.Session
import DocModel.Proofs.Comment.Blocks
import DocModel.Proofs.Example.Lines
import DocModel.Proofs.Syntax.Functions
import Mathlib.Data.List.Forall2

/-!
# Which comments become docs

A session reads the comments of a source through a notebook, looks up functions in an index by line,
and numbers the docs as it makes them. Here the docs of a library are described without any of
these: a comment documents the first function that the recursive walk meets on the line after it, if
the comment can be read and the function has a name. The docs are those of the documented comments,
one for each, in the order of the source (`Session.docs_documented`).

The notebook may be left out because an entry made under the first byte of a comment is the reading
of that comment and of no other (`Notebook.Faithful`), whoever made it.
-/

namespace DocModel

/-! ## Each comment is read once -/

/-- What a comment says, if it can be read. -/
def BlockComment.doclet? (c : BlockComment) : Option Doclet := (Doclet.parse c.value).toOption

theorem BlockComment.parse_of_doclet? {c : BlockComment} {doclet : Doclet}
    (h : c.doclet? = some doclet) : Doclet.parse c.value = .ok doclet := by
  unfold doclet? at h
  cases hparse : Doclet.parse c.value with
  | error problem =>
    rw [hparse] at h
    cases h
  | ok found =>
    rw [hparse] at h
    cases h
    rfl

namespace Notebook

variable {comments : List BlockComment}

/-- **A notebook that is right about given comments**: what stands in it under the first byte of
one of them is what that comment says. -/
def Faithful (comments : List BlockComment) (nb : Notebook) : Prop :=
  ∀ c ∈ comments, ∀ doclet, nb.doclets.lookup c.startByte = some doclet → doclet = c.doclet?

theorem faithful_empty : Faithful comments empty := fun _ _ _ h => by cases h

section Distinct

variable (hcomments : comments.Pairwise (·.startByte < ·.startByte))
include hcomments

theorem eq_of_startByte {c d : BlockComment} (hc : c ∈ comments) (hd : d ∈ comments)
    (h : c.startByte = d.startByte) : c = d := by
  have hnodup : (comments.map (·.startByte)).Nodup :=
    List.pairwise_map.mpr (hcomments.imp Nat.ne_of_lt)
  exact List.inj_on_of_nodup_map hnodup hc hd h

variable {nb : Notebook} {c : BlockComment} (hnb : nb.Faithful comments) (hc : c ∈ comments)
include hnb hc

/-- An entry for a comment is an entry for no other. -/
theorem Faithful.cons (errors : List CommentError) :
    Faithful comments ⟨(c.startByte, c.doclet?) :: nb.doclets, errors⟩ := by
  intro d hd doclet hlookup
  rw [List.lookup_cons] at hlookup
  split at hlookup
  · next heq =>
    rw [← Option.some.inj hlookup, eq_of_startByte hcomments hd hc (beq_iff_eq.mp heq)]
  · exact hnb d hd doclet hlookup

/-- **Reading a comment gives what it says**, whether or not it has been read before. -/
theorem Faithful.read :
    (nb.read c).1 = c.doclet? ∧ (nb.read c).2.Faithful comments := by
  have hcons := hnb.cons hcomments hc
  unfold Notebook.read
  cases hlookup : nb.doclets.lookup c.startByte with
  | some doclet => exact ⟨hnb c hc doclet hlookup, hnb⟩
  | none =>
    unfold BlockComment.doclet? at hcons ⊢
    cases hparse : Doclet.parse c.value with
    | ok doclet =>
      rw [hparse] at hcons
      exact ⟨rfl, hcons _⟩
    | error problem =>
      rw [hparse] at hcons
      exact ⟨rfl, hcons _⟩

omit hnb hc

theorem Faithful.readAll (hnb : nb.Faithful comments) {cs : List BlockComment}
    (hcs : cs ⊆ comments) :
    (nb.readAll cs).1 = cs.filterMap (fun c => c.doclet?.map (c, ·)) ∧
      (nb.readAll cs).2.Faithful comments := by
  induction cs generalizing nb with
  | nil => exact ⟨rfl, hnb⟩
  | cons c cs ih =>
    obtain ⟨hread, hnext⟩ := hnb.read hcomments (hcs List.mem_cons_self)
    obtain ⟨hrest, hlast⟩ := ih hnext fun d hd => hcs (List.mem_cons_of_mem c hd)
    refine ⟨?_, hlast⟩
    rw [Notebook.readAll, List.filterMap_cons, ← hread]
    dsimp only
    rw [hrest]
    cases (nb.read c).1 <;> rfl

end Distinct

end Notebook

/-! ## Documented comments -/

/-- **What a comment documents**: what it says, the function, and the name of the function. -/
structure Documented where
  /-- What the comment says. -/
  doclet : Doclet
  /-- The function. -/
  node : NodeId
  /-- The name of the function. -/
  name : Text

namespace Source

/-- What a comment documents: the first function that a walk met on the line after it, if the
comment can be read and the function has a name. -/
def documented? (source : Source) (walked : Trail) (c : BlockComment) : Option Documented := do
  let n ← source.graph.firstFunction? walked.visited.reverse (c.endLine + 1)
  let doclet ← c.doclet?
  let name ← Naming.resolve source.graph walked.parents n
  return ⟨doclet, n, name⟩

/-- The comments of a source that document a function, with what they document. -/
def documented (source : Source) (walked : Trail) : List (BlockComment × Documented) :=
  source.comments.filterMap fun c => (source.documented? walked c).map (c, ·)

end Source

/-- **A doc of what a comment documents.** It names the line after the comment and the source of the
function, it has the name of the function under the tags of the comment, and its examples stand in
the comment. -/
structure FunctionDoc.Documents (source : Source) (d : FunctionDoc)
    (x : BlockComment × Documented) : Prop where
  line : d.line = x.1.endLine + 1
  source : d.source = source.slice x.2.node
  name : d.toQualifiedName = (QualifiedName.parse x.2.name).underTags x.2.doclet
  examples : ∀ e ∈ d.examples.items, (x.1.startLine : Int) ≤ e.line ∧ e.line ≤ x.1.endLine

namespace Associator

variable {a : Associator}

theorem resolve_of_functionDoc_none {number : Nat} {c : BlockComment} {doclet : Doclet}
    {n : NodeId} (h : a.functionDoc number c doclet n = .ok none) :
    Naming.resolve a.source.graph a.index.parents n = none := by
  unfold functionDoc at h
  split at h
  · assumption
  · simp only [Except.bind_eq_ok_iff] at h
    obtain ⟨_, -, _, -, heq⟩ := h
    cases heq

/-- A doc is made of the parts of what its comment documents. -/
theorem functionDoc_eq_some {number : Nat} {c : BlockComment} {doclet : Doclet} {n : NodeId}
    {d : FunctionDoc} (h : a.functionDoc number c doclet n = .ok (some d)) :
    ∃ name, Naming.resolve a.source.graph a.index.parents n = some name ∧
      d.toQualifiedName = (QualifiedName.parse name).underTags doclet ∧
      d.source = a.source.slice n ∧ d.line = a.source.graph.line n ∧
      a.builder.examples doclet c.startLine = .ok d.examples := by
  unfold functionDoc at h
  split at h
  · cases h
  · next name hname =>
    simp only [Except.bind_eq_ok_iff] at h
    obtain ⟨examples, hexamples, benchmarks, -, heq⟩ := h
    cases heq
    exact ⟨name, hname, rfl, rfl, rfl, hexamples⟩

/-- **What a comment that can be read does to the docs**: it adds none, because there is no function
below it or because the function has no name, or it adds one in front. -/
theorem functionDocs_cons {next : Nat} {c : BlockComment} {doclet : Doclet}
    {rest : List (BlockComment × Doclet)} {docs : List FunctionDoc}
    (h : a.functionDocs next ((c, doclet) :: rest) = .ok docs) :
    ((∀ n, a.target? c = some n → Naming.resolve a.source.graph a.index.parents n = none) ∧
      a.functionDocs next rest = .ok docs) ∨
    ∃ n d more, a.target? c = some n ∧ a.functionDoc next c doclet n = .ok (some d) ∧
      a.functionDocs (next + 1) rest = .ok more ∧ docs = d :: more := by
  rw [functionDocs] at h
  cases htarget : a.target? c with
  | none =>
    rw [htarget] at h
    exact .inl ⟨nofun, h⟩
  | some n =>
    rw [htarget] at h
    obtain ⟨made, hmade, h⟩ := Except.bind_eq_ok_iff.mp h
    cases made with
    | none =>
      refine .inl ⟨fun m hm => ?_, h⟩
      rw [← Option.some.inj hm]
      exact resolve_of_functionDoc_none hmade
    | some d =>
      obtain ⟨more, hmore, heq⟩ := Except.bind_eq_ok_iff.mp h
      cases heq
      exact .inr ⟨n, d, more, rfl, hmade, hmore, rfl⟩

variable {walked : Trail} (hparents : a.index.parents = walked.parents)
  (hfunctions : ∀ line, a.index.get? line
    = a.source.graph.firstFunction? walked.visited.reverse line)
include hparents hfunctions

/-- The index and the walk agree on what a comment documents. -/
theorem documented?_eq (c : BlockComment) :
    a.source.documented? walked c = do
      let n ← a.target? c
      let doclet ← c.doclet?
      let name ← Naming.resolve a.source.graph a.index.parents n
      return ⟨doclet, n, name⟩ := by
  rw [Source.documented?, target?, hfunctions, hparents]

/-- **The docs that comments make are those of the documented ones**, in their order. -/
theorem functionDocs_documented {next : Nat} {cs : List BlockComment} {docs : List FunctionDoc}
    (hlines : ∀ c ∈ cs, ∀ i < (Text.lines c.value).length, c.startLine + i ≤ c.endLine)
    (h : a.functionDocs next (cs.filterMap fun c => c.doclet?.map (c, ·)) = .ok docs) :
    List.Forall₂ (FunctionDoc.Documents a.source) docs
      (cs.filterMap fun c => (a.source.documented? walked c).map (c, ·)) := by
  induction cs generalizing next docs with
  | nil =>
    cases h
    exact .nil
  | cons c cs ih =>
    have htail : ∀ d ∈ cs, ∀ i < (Text.lines d.value).length, d.startLine + i ≤ d.endLine :=
      fun d hd => hlines d (List.mem_cons_of_mem c hd)
    have hdocumented := documented?_eq hparents hfunctions c
    rw [List.filterMap_cons] at h ⊢
    cases hdoclet : c.doclet? with
    | none =>
      rw [hdoclet] at h hdocumented
      have hnone : a.source.documented? walked c = none := by
        rw [hdocumented]
        cases a.target? c <;> rfl
      rw [hnone]
      exact ih htail h
    | some doclet =>
      rw [hdoclet] at h hdocumented
      obtain ⟨hunnamed, hrest⟩ | ⟨n, d, more, htarget, hmade, hrest, rfl⟩ := functionDocs_cons h
      · have hnone : a.source.documented? walked c = none := by
          rw [hdocumented]
          cases htarget : a.target? c with
          | none => rfl
          | some n =>
            simp only [Option.bind_eq_bind, Option.bind_some, hunnamed n htarget, Option.bind_none]
        rw [hnone]
        exact ih htail hrest
      · obtain ⟨name, hname, hqualified, hsource, hline, hexamples⟩ := functionDoc_eq_some hmade
        have hsome : a.source.documented? walked c = some ⟨doclet, n, name⟩ := by
          rw [hdocumented, htarget]
          simp only [Option.bind_eq_bind, Option.bind_some, hname]
          rfl
        rw [hsome]
        refine .cons ⟨?_, hsource, hqualified, fun e he => ?_⟩ (ih htail hrest)
        · rw [hline]
          exact Graph.line_of_firstFunction? ((hfunctions _).symm.trans htarget)
        · obtain ⟨i, hi, hei⟩ := ExampleBuilder.exists_line_of_mem_items
            (BlockComment.parse_of_doclet? hdoclet) hexamples he
          have := hlines c List.mem_cons_self i hi
          dsimp only
          omega

/-- **The docs of a source are those of its documented comments.** -/
theorem associate_documented {nb : Notebook} {docs : List FunctionDoc}
    (hcomments : a.source.comments.Pairwise (·.startByte < ·.startByte))
    (hnb : nb.Faithful a.source.comments)
    (hlines : ∀ c ∈ a.source.comments, ∀ i < (Text.lines c.value).length,
      c.startLine + i ≤ c.endLine)
    (h : (a.associate nb).1 = .ok docs) :
    List.Forall₂ (FunctionDoc.Documents a.source) docs (a.source.documented walked) := by
  have hsubset : (a.source.comments.filter fun c => (a.target? c).isSome) ⊆ a.source.comments :=
    fun c hc => (List.mem_filter.mp hc).1
  have h : a.functionDocs 0
      (nb.readAll (a.source.comments.filter fun c => (a.target? c).isSome)).1 = .ok docs := h
  rw [(hnb.readAll hcomments hsubset).1] at h
  have hdocs := functionDocs_documented hparents hfunctions
    (fun c hc => hlines c (hsubset hc)) h
  -- Comments without a function below them document nothing.
  rw [List.filterMap_filter] at hdocs
  refine (congrArg _ (List.filterMap_congr fun c _ => ?_)).mp hdocs
  split
  · rfl
  · next htarget =>
    rw [Bool.not_eq_true, Option.isSome_eq_false_iff, Option.isNone_iff_eq_none] at htarget
    rw [documented?_eq hparents hfunctions, htarget]
    rfl

end Associator

/-- Marking docs as left out does not change what they document. -/
theorem FunctionDoc.documents_restrictTo {source : Source} {docs : List FunctionDoc}
    {documented : List (BlockComment × Documented)} (tags : List Text)
    (h : List.Forall₂ (Documents source) docs documented) :
    List.Forall₂ (Documents source) (restrictTo tags docs) documented := by
  unfold restrictTo
  split
  · exact h
  · rw [List.forall₂_map_left_iff]
    refine h.imp fun d x hd => ?_
    split
    · exact hd
    · exact ⟨hd.line, hd.source, hd.name, hd.examples⟩

namespace Session

/-- A text in the language of scripts is read as the source that the parser makes of it. -/
theorem parse_eq_document {s : Session} (hlanguage : s.settings.language = "javascript")
    (text : Text) : s.parse text = s.document (Source.parse s.script text) :=
  if_neg (not_not_intro hlanguage)

theorem language_of_parse {s : Session} {text : Text} {library : Library}
    {errors : List CommentError} (hparse : s.parse text = (.ok library, errors)) :
    s.settings.language = "javascript" := by
  unfold parse at hparse
  split at hparse
  · cases hparse
  · next hlanguage => exact Decidable.not_not.mp hlanguage

/-- **What a library is made of**: the index of the functions in the source, the docs of the
comments that are read after the summary, and the other parts. -/
theorem parse_eq_ok {s : Session} {text : Text} {library : Library} {errors : List CommentError}
    (h : s.parse text = (.ok library, errors)) :
    ∃ (index : DeclarationIndex) (docs : List FunctionDoc),
      DeclarationIndex.build (Source.parse s.script text).graph s.table 0 = .ok index ∧
      let a : Associator := ⟨Source.parse s.script text, index, s.builder, s.renderer⟩
      let associated := a.associate (a.summary .empty).2
      let types := a.types associated.2
      associated.1 = .ok docs ∧ errors = types.2.errors ∧
      library = s.assemble text index.referenceName (a.summary .empty).1
        (FunctionDoc.restrictTo (s.settingsFor docs).tags docs) types.1 types.2.errors := by
  rw [parse_eq_document (language_of_parse h), document] at h
  split at h
  · cases h
  · cases h
  · next index hindex =>
    dsimp only at h
    split at h
    · cases h
    · next docs hdocs =>
      cases h
      exact ⟨index, docs, hindex, hdocs, rfl, rfl⟩

/-- A library of which something can be seen is one that the session made. -/
theorem exists_parse_eq_ok {α : Type} {s : Session} {text : Text} {view : Library → α} {seen : α}
    (h : (s.parse text).1.toOption.map view = some seen) :
    ∃ library errors, s.parse text = (.ok library, errors) ∧ view library = seen := by
  cases hparse : s.parse text with
  | mk result errors =>
    rw [hparse] at h
    cases result with
    | error failure => cases h
    | ok library => exact ⟨library, errors, rfl, Option.some.inj h⟩

/-- A session with default settings and no handlers, whose parser finds the given tree. -/
def ofTree (tree : SyntaxTree) : Session where
  settings := {}
  table := scriptTable
  script := fun _ => ⟨false, tree⟩
  builder := ⟨[], [], fun _ => ⟨false, tree⟩⟩
  renderer := .plain
  grep := none

/-- A source with a comment that documents a function, and one that cannot be read. -/
def pairedText : Text :=
  "/** Öne.\n * @example f() // => 1\n */\nfunction f() \x7b\x7d\n"
    ++ "/** @param \x7bx */\nfunction g() \x7b\x7d\n"

/-- The tree of `pairedText`. -/
def pairedTree : SyntaxTree :=
  .node "program" true 0 87 none
    [.node "comment" true 0 37 none [],
     .node "function_declaration" true 38 53 none
       [.node "identifier" true 47 48 (some "name") []],
     .node "comment" true 54 70 none [],
     .node "function_declaration" true 71 86 none
       [.node "identifier" true 80 81 (some "name") []]]

end Session

end DocModel
