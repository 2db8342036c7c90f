import DocModel.Proofs.Library.Association

/-!
# Comments that cannot be read

Three passes look at the comments of a source: for its summary, for docs of functions and for types.
They share one notebook, and a comment that cannot be read is noted as an error by whichever pass
comes to it first. The first pass looks at every comment, in the order of the source, so it leaves
nothing to report for the others (`Notebook.readAll_of_holds`), and the errors of a library are
those of its unreadable comments: one for each, in that order.

Nothing else comes of an unreadable comment. A library is the same, apart from its errors, if these
comments are taken out of the source before (`Session.errors_exact`).
-/

namespace DocModel

namespace BlockComment

/-- **The error that a comment makes**, if it cannot be read: the line on which it starts, and the
problem, which has the message. -/
def error? (c : BlockComment) : Option CommentError :=
  match Doclet.parse c.value with
  | .ok _ => none
  | .error problem => some ⟨c.startLine, problem⟩

/-- Whether a comment can be read. -/
def isReadable (c : BlockComment) : Bool := c.doclet?.isSome

theorem error?_of_isReadable {c : BlockComment} (h : c.isReadable = true) : c.error? = none := by
  obtain ⟨doclet, hdoclet⟩ := Option.isSome_iff_exists.mp h
  rw [error?, parse_of_doclet? hdoclet]

end BlockComment

/-! ## Errors in the notebook -/

namespace Notebook

variable {nb : Notebook} {c d : BlockComment} {cs : List BlockComment}

/-- Whether a comment has been looked at. -/
def holds (nb : Notebook) (c : BlockComment) : Bool := (nb.doclets.lookup c.startByte).isSome

/-- A comment that has been looked at changes nothing. -/
theorem read_of_holds (h : nb.holds c = true) : (nb.read c).2 = nb := by
  obtain ⟨doclet, hlookup⟩ := Option.isSome_iff_exists.mp h
  rw [read, hlookup]

/-- **What reading a new comment notes**: an entry for it, and its error if it makes one. -/
theorem read_of_not_holds (h : nb.holds c = false) :
    (nb.read c).2 = ⟨(c.startByte, c.doclet?) :: nb.doclets, nb.errors ++ c.error?.toList⟩ := by
  have hlookup : nb.doclets.lookup c.startByte = none :=
    Option.isNone_iff_eq_none.mp (Option.isSome_eq_false_iff.mp h)
  rw [read, hlookup, BlockComment.doclet?, BlockComment.error?]
  cases Doclet.parse c.value with
  | ok doclet =>
    rw [Option.toList_none, List.append_nil]
    rfl
  | error problem => rfl

theorem holds_read : (nb.read c).2.holds d = (d.startByte == c.startByte || nb.holds d) := by
  by_cases hc : nb.holds c = true
  · rw [read_of_holds hc]
    by_cases hd : d.startByte = c.startByte
    · rw [holds] at hc
      rw [holds, hd, hc, Bool.or_true]
    · rw [beq_false_of_ne hd, Bool.false_or]
  · rw [read_of_not_holds (Bool.eq_false_iff.mpr hc), holds, List.lookup_cons]
    cases hd : d.startByte == c.startByte with
    | true => rfl
    | false => rfl

theorem readAll_cons : (nb.readAll (c :: cs)).2 = ((nb.read c).2.readAll cs).2 := rfl

theorem holds_readAll_of_holds (h : nb.holds d = true) : (nb.readAll cs).2.holds d = true := by
  induction cs generalizing nb with
  | nil => exact h
  | cons c cs ih =>
    rw [readAll_cons]
    refine ih ?_
    rw [holds_read, h, Bool.or_true]

/-- Every comment of a list that is read has been looked at then. -/
theorem holds_readAll (h : d ∈ cs) : (nb.readAll cs).2.holds d = true := by
  induction h generalizing nb with
  | head cs =>
    rw [readAll_cons]
    refine holds_readAll_of_holds ?_
    rw [holds_read, beq_self_eq_true, Bool.true_or]
  | tail c _ ih =>
    rw [readAll_cons]
    exact ih

/-- **Comments that have been looked at are not reported again.** -/
theorem readAll_of_holds (h : ∀ c ∈ cs, nb.holds c = true) : (nb.readAll cs).2 = nb := by
  induction cs with
  | nil => rfl
  | cons c cs ih =>
    obtain ⟨hc, hcs⟩ := List.forall_mem_cons.mp h
    rw [readAll_cons, read_of_holds hc, ih hcs]

/-- **New comments are reported in their order**, each that cannot be read once. -/
theorem errors_readAll (hcs : cs.Pairwise (·.startByte < ·.startByte))
    (h : ∀ c ∈ cs, nb.holds c = false) :
    (nb.readAll cs).2.errors = nb.errors ++ cs.filterMap (·.error?) := by
  induction cs generalizing nb with
  | nil => exact (List.append_nil _).symm
  | cons c cs ih =>
    obtain ⟨hc, hrest⟩ := List.forall_mem_cons.mp h
    obtain ⟨hlt, hcs⟩ := List.pairwise_cons.mp hcs
    -- The entry that is made now stands under the byte of no later comment.
    have hnext : ∀ d ∈ cs, (nb.read c).2.holds d = false := by
      intro d hd
      rw [holds_read, hrest d hd, beq_false_of_ne (Nat.ne_of_gt (hlt d hd)), Bool.or_false]
    rw [readAll_cons, ih hcs hnext, read_of_not_holds hc, List.append_assoc, List.filterMap_cons]
    cases c.error? <;> rfl

/-- Comments that cannot be read may as well be left out before reading. -/
theorem readAll_readable {comments : List BlockComment} {nb' : Notebook}
    (hcomments : comments.Pairwise (·.startByte < ·.startByte)) (hnb : nb.Faithful comments)
    (hnb' : nb'.Faithful comments) (hcs : cs ⊆ comments) :
    (nb'.readAll (cs.filter (·.isReadable))).1 = (nb.readAll cs).1 := by
  have hsubset : cs.filter (·.isReadable) ⊆ comments :=
    fun c hc => hcs (List.mem_filter.mp hc).1
  rw [(hnb'.readAll hcomments hsubset).1, (hnb.readAll hcomments hcs).1, List.filterMap_filter]
  refine List.filterMap_congr fun c _ => ?_
  unfold BlockComment.isReadable
  cases c.doclet? <;> rfl

end Notebook

/-! ## The three passes -/

/-- A source whose comments are those that can be read. -/
def Source.readable (source : Source) : Source :=
  { source with comments := source.comments.filter (·.isReadable) }

namespace Associator

variable {a : Associator}

/-- The associator of a source whose comments are those that can be read. -/
def readable (a : Associator) : Associator := { a with source := a.source.readable }

/-- **The notebook after the first pass**, which looks at all comments. -/
def notebook (a : Associator) : Notebook := (a.summary .empty).2

/-- The pass for docs finds all its comments in the notebook. -/
theorem associate_notebook : (a.associate a.notebook).2 = a.notebook :=
  Notebook.readAll_of_holds fun _ hc => Notebook.holds_readAll (List.mem_filter.mp hc).1

/-- The pass for types finds all its comments in the notebook. -/
theorem types_notebook : (a.types a.notebook).2 = a.notebook :=
  Notebook.readAll_of_holds fun _ hc => Notebook.holds_readAll (List.mem_filter.mp hc).1

/-- The doc of a function does not depend on other comments. -/
theorem functionDocs_readable (next : Nat) (read : List (BlockComment × Doclet)) :
    a.readable.functionDocs next read = a.functionDocs next read := by
  induction read generalizing next with
  | nil => rfl
  | cons first rest ih =>
    obtain ⟨c, doclet⟩ := first
    rw [functionDocs, functionDocs]
    simp only [ih]
    rfl

section Distinct

variable (hcomments : a.source.comments.Pairwise (·.startByte < ·.startByte))
include hcomments

theorem errors_notebook : a.notebook.errors = a.source.comments.filterMap (·.error?) :=
  Notebook.errors_readAll hcomments fun _ _ => rfl

theorem errors_notebook_readable : a.readable.notebook.errors = [] := by
  have hsorted : a.readable.source.comments.Pairwise (·.startByte < ·.startByte) :=
    hcomments.filter _
  rw [errors_notebook hsorted, List.filterMap_eq_nil_iff]
  exact fun c hc => BlockComment.error?_of_isReadable (List.mem_filter.mp hc).2

theorem faithful_notebook : a.notebook.Faithful a.source.comments :=
  (Notebook.faithful_empty.readAll hcomments (List.Subset.refl _)).2

theorem faithful_notebook_readable : a.readable.notebook.Faithful a.source.comments :=
  (Notebook.faithful_empty.readAll hcomments fun _ hc => (List.mem_filter.mp hc).1).2

/-! What each of the passes makes of the comments does not change when the unreadable ones are left
out. -/

theorem summary_readable : (a.readable.summary .empty).1 = (a.summary .empty).1 := by
  have hread : (Notebook.empty.readAll a.readable.source.comments).1
      = (Notebook.empty.readAll a.source.comments).1 :=
    Notebook.readAll_readable hcomments Notebook.faithful_empty Notebook.faithful_empty
      (List.Subset.refl _)
  unfold summary
  dsimp only
  rw [hread]
  rfl

/-- A later pass reads the same, whatever comments it chooses. -/
theorem readAll_notebook_readable (p : BlockComment → Bool) :
    (a.readable.notebook.readAll (a.readable.source.comments.filter p)).1
      = (a.notebook.readAll (a.source.comments.filter p)).1 := by
  have hswap : a.readable.source.comments.filter p
      = (a.source.comments.filter p).filter (·.isReadable) := List.filter_comm _ _ _
  rw [hswap]
  exact Notebook.readAll_readable hcomments (faithful_notebook hcomments)
    (faithful_notebook_readable hcomments) fun _ hc => (List.mem_filter.mp hc).1

theorem associate_readable :
    (a.readable.associate a.readable.notebook).1 = (a.associate a.notebook).1 := by
  have hread := readAll_notebook_readable hcomments fun c => (a.target? c).isSome
  show a.readable.functionDocs 0 (a.readable.notebook.readAll
    (a.readable.source.comments.filter fun c => (a.target? c).isSome)).1 = _
  rw [hread, functionDocs_readable]
  rfl

theorem types_readable : (a.readable.types a.readable.notebook).1 = (a.types a.notebook).1 := by
  have hread := readAll_notebook_readable hcomments fun c => Text.occursIn "@typedef" c.value
  unfold types
  dsimp only
  rw [hread]
  rfl

end Distinct

end Associator

/-! ## Libraries -/

namespace Session

open Associator

/-- The library that some docs of a source make up with what else its comments say. -/
def libraryOf (s : Session) (a : Associator) (docs : List FunctionDoc) : Library :=
  s.assemble a.source.text a.index.referenceName (a.summary .empty).1
    (FunctionDoc.restrictTo (s.settingsFor docs).tags docs) (a.types a.notebook).1
    a.notebook.errors

/-- **When a source has a library**: its functions can be found, and docs can be made of its
comments. Every pass leaves the notebook of the first one. -/
theorem document_eq_ok_iff {s : Session} {source : Source} {library : Library}
    {errors : List CommentError} :
    s.document source = (.ok library, errors) ↔
      ∃ index docs, DeclarationIndex.build source.graph s.table 0 = .ok index ∧
        ((s.associator source index).associate (s.associator source index).notebook).1 = .ok docs ∧
        s.libraryOf (s.associator source index) docs = library ∧
        (s.associator source index).notebook.errors = errors := by
  unfold document
  cases hindex : DeclarationIndex.build source.graph s.table 0 with
  | error problem =>
    constructor
    · intro h
      cases problem <;> cases h
    · rintro ⟨index, docs, hok, -⟩
      cases hok
  | ok index =>
    have hassociate : ((s.associator source index).associate
        ((s.associator source index).summary .empty).2).2
          = ((s.associator source index).summary .empty).2 := associate_notebook
    have htypes : ((s.associator source index).types
        ((s.associator source index).summary .empty).2).2
          = ((s.associator source index).summary .empty).2 := types_notebook
    dsimp only
    constructor
    · intro h
      split at h
      · cases h
      · next docs hdocs =>
        rw [hassociate, htypes] at h
        cases h
        exact ⟨index, docs, rfl, hdocs, rfl, rfl⟩
    · rintro ⟨index', docs, heq, hdocs, rfl, rfl⟩
      cases heq
      unfold notebook at hdocs
      rw [hdocs, hassociate]
      dsimp only
      rw [htypes]
      rfl

theorem libraryOf_readable {s : Session} {a : Associator} (docs : List FunctionDoc)
    (hcomments : a.source.comments.Pairwise (·.startByte < ·.startByte)) :
    s.libraryOf a.readable docs = { s.libraryOf a docs with errors := [] } := by
  unfold libraryOf
  rw [summary_readable hcomments, types_readable hcomments, errors_notebook_readable hcomments]
  rfl

/-- **Errors are exact.** In a source whose block comments start on different bytes, the errors of
a library are those of the comments that cannot be read: one for each, in the order of their first
bytes, whatever stands below the comment or in it. All else in the library is what there is without
these comments. -/
theorem errors_exact (s : Session) (text : Text)
    (hdistinct : ((Source.parse s.script text).comments.map (·.startByte)).Nodup)
    {library : Library} {errors : List CommentError}
    (hparse : s.parse text = (.ok library, errors)) :
    let source := Source.parse s.script text
    (∀ c, c ∈ source.comments ↔
      ∃ t ∈ (s.script text).root.commentNodes, BlockComment.ofNode? text t = some c) ∧
    source.comments.Pairwise (·.startByte < ·.startByte) ∧
    library.errors = source.comments.filterMap (·.error?) ∧ errors = library.errors ∧
    s.document source = (.ok library, errors) ∧
    s.document source.readable = (.ok { library with errors := [] }, []) := by
  intro source
  have hcomments : source.comments.Pairwise (·.startByte < ·.startByte) :=
    Source.pairwise_comments_of_nodup hdistinct
  have hdocument : s.document source = (.ok library, errors) := by
    rw [← hparse, parse_eq_document (language_of_parse hparse)]
  obtain ⟨index, docs, hindex, hdocs, rfl, rfl⟩ := document_eq_ok_iff.mp hdocument
  refine ⟨fun c => Source.mem_comments, hcomments, errors_notebook hcomments, rfl, hdocument,
    document_eq_ok_iff.mpr ⟨index, docs, hindex, ?_, ?_, ?_⟩⟩
  · exact (associate_readable (a := s.associator source index) hcomments).trans hdocs
  · exact libraryOf_readable (a := s.associator source index) docs hcomments
  · exact errors_notebook_readable (a := s.associator source index) hcomments

/-- A source in which three comments cannot be read: one that would define a type, one with
a function below it, and one at the end. -/
def faultyText : Text :=
  "/** @typedef \x7bx */\n/** One. */\nfunction f() \x7b\x7d\n"
    ++ "/** @returns \x7b?=\x7d */\nfunction g() \x7b\x7d\n// \x7bx\n/** @param \x7bx */\n"

/-- The tree of `faultyText`. -/
def faultyTree : SyntaxTree :=
  .node "program" true 0 107 none
    [.node "comment" true 0 18 none [], .node "comment" true 19 30 none [],
     .node "function_declaration" true 31 46 none
       [.node "identifier" true 40 41 (some "name") []],
     .node "comment" true 47 67 none [],
     .node "function_declaration" true 68 83 none
       [.node "identifier" true 77 78 (some "name") []],
     .node "comment" true 84 89 none [], .node "comment" true 90 106 none []]

/-- The lines of the unreadable comments of `faultyText`, and the messages about them. -/
def faultyReports : List (Nat × Text) :=
  [(1, "Unterminated type expression: '\x7bx'"), (4, "Unexpected token '=' in type '?='"),
   (7, "Unterminated type expression: '\x7bx'")]

theorem errors_exact_faulty :
    ∃ library errors, (ofTree faultyTree).parse faultyText = (.ok library, errors) ∧
      library.docs.map (·.name) = [("f" : Text)] ∧
      library.errors.map (fun e => (e.line, e.problem.message)) = faultyReports ∧
      (ofTree faultyTree).document (Source.ofTree faultyText faultyTree).readable
        = (.ok { library with errors := [] }, []) := by
  have hsource : Source.parse (ofTree faultyTree).script faultyText
      = ⟨faultyText, .ofTree faultyText faultyTree, BlockComment.ofTree faultyText faultyTree⟩ :=
    Source.ofTree_of_pairwise (by decide +kernel)
  obtain ⟨library, errors, hparse, hnames⟩ : ∃ library errors,
      (ofTree faultyTree).parse faultyText = (.ok library, errors) ∧
        library.docs.map (·.name) = [("f" : Text)] := by
    refine exists_parse_eq_ok ?_
    unfold parse
    rw [hsource]
    decide +kernel
  have hdistinct : ((Source.parse (ofTree faultyTree).script faultyText).comments.map
      (·.startByte)).Nodup := by
    rw [hsource]
    decide +kernel
  obtain ⟨-, -, herrors, -, -, hreadable⟩ :=
    errors_exact (ofTree faultyTree) faultyText hdistinct hparse
  rw [hsource] at herrors
  refine ⟨library, errors, hparse, hnames, ?_, hreadable⟩
  rw [herrors]
  decide +kernel

end Session

end DocModel
