import DocModel.Proofs.Library.Aggregation

/-!
# What the flags of a namespace tell

A namespace has two flags, which say whether there are examples and whether there are benchmarks.
They are set when the namespace is built, from the docs that it lists then: its constructor and its
members. A pattern for names shortens the list later. The flag for examples is then set again, from
the docs that are left; the flag for benchmarks stays as it was.

So after each step the one flag is about the listed docs and the other about the constructor and the
members (`NamespaceInfo.Flagged`). With a pattern these can differ: a namespace whose only
benchmarks belong to docs that the pattern takes away has the flag and nothing to show for it
(`Session.flag_without_benchmarks`). Otherwise both flags are true to the list
(`Session.flags_listed`).
-/

namespace DocModel

namespace NamespaceInfo

/-- The constructor and the members of a namespace, listed or not. -/
def ownDocs (info : NamespaceInfo) : List FunctionDoc := info.constructor?.toList ++ info.members

/-- **A namespace that lists the shown ones of its docs**: one flag tells of the listed docs, the
other of all. -/
structure Flagged (shown : FunctionDoc → Bool) (info : NamespaceInfo) : Prop where
  listed : info.allMembers = info.ownDocs.filter shown
  examples : info.hasExamples = info.allMembers.any (·.hasExamples)
  benchmarks : info.hasBenchmarks = info.ownDocs.any (·.hasBenchmarks)

theorem flagged_build (groups : Groups) (name : Text) :
    (build groups name).Flagged fun _ => true where
  listed := (List.filter_eq_self.mpr fun _ _ => rfl).symm
  examples := rfl
  benchmarks := rfl

theorem Flagged.restrict {info : NamespaceInfo} (h : info.Flagged fun _ => true) (p : Finder) :
    (info.restrict p).Flagged fun d => p.foundIn d.name where
  listed := by
    show docsMatching p info.allMembers = info.ownDocs.filter _
    rw [h.listed, List.filter_eq_self.mpr fun _ _ => rfl]
    rfl
  examples := rfl
  benchmarks := h.benchmarks

theorem flagged_of_mem_aggregate {docs : List FunctionDoc} {requested : List Text}
    {info : NamespaceInfo} (h : info ∈ aggregate docs requested) : info.Flagged fun _ => true := by
  obtain ⟨name, -, rfl⟩ := List.mem_map.mp h
  exact flagged_build _ name

/-- The flag for benchmarks is true to the list exactly if the list has kept a doc with benchmarks,
where there was one. -/
theorem Flagged.benchmarks_listed_iff {shown : FunctionDoc → Bool} {info : NamespaceInfo}
    (h : info.Flagged shown) :
    (info.hasBenchmarks = true ↔ ∃ d ∈ info.allMembers, d.hasBenchmarks = true) ↔
      ((∃ d ∈ info.ownDocs, d.hasBenchmarks = true) →
        ∃ d ∈ info.ownDocs, shown d = true ∧ d.hasBenchmarks = true) := by
  have hkept : (∃ d ∈ info.allMembers, d.hasBenchmarks = true) ↔
      ∃ d ∈ info.ownDocs, shown d = true ∧ d.hasBenchmarks = true := by
    simp only [h.listed, List.mem_filter, and_assoc]
  rw [hkept, h.benchmarks, List.any_eq_true]
  constructor
  · exact Iff.mp
  · intro himp
    exact ⟨himp, fun ⟨d, hd, _, hflag⟩ => ⟨d, hd, hflag⟩⟩

end NamespaceInfo

namespace Session

/-- Whether a session lists a doc: if there is a pattern, it has to be found in the name. -/
def shows (s : Session) (d : FunctionDoc) : Bool := s.grep.all fun p => p.foundIn d.name

theorem flagged_of_parse {s : Session} {text : Text} {library : Library}
    {errors : List CommentError} (hparse : s.parse text = (.ok library, errors))
    {info : NamespaceInfo} (hinfo : info ∈ library.namespaces) : info.Flagged s.shows := by
  obtain ⟨index, docs, -, -, -, rfl⟩ := parse_eq_ok hparse
  unfold shows
  cases hgrep : s.grep with
  | none =>
    simp only [assemble, hgrep] at hinfo
    exact NamespaceInfo.flagged_of_mem_aggregate hinfo
  | some p =>
    simp only [assemble, hgrep, List.mem_map] at hinfo
    obtain ⟨built, hbuilt, rfl⟩ := hinfo
    exact (NamespaceInfo.flagged_of_mem_aggregate hbuilt).restrict p

/-- **What the flags tell.** Each namespace of a library lists those of its docs that the session
shows. Its flag for examples is true to the list, its flag for benchmarks to all its docs. So the
latter is true to the list exactly if a listed doc has benchmarks or no doc of the namespace has;
without a pattern, that is always so. -/
theorem flags_listed (s : Session) (text : Text) {library : Library} {errors : List CommentError}
    (hparse : s.parse text = (.ok library, errors)) {info : NamespaceInfo}
    (hinfo : info ∈ library.namespaces) :
    info.allMembers = info.ownDocs.filter s.shows ∧
    (info.hasExamples = true ↔ ∃ d ∈ info.allMembers, d.hasExamples = true) ∧
    (info.hasBenchmarks = true ↔ ∃ d ∈ info.ownDocs, d.hasBenchmarks = true) ∧
    ((info.hasBenchmarks = true ↔ ∃ d ∈ info.allMembers, d.hasBenchmarks = true) ↔
      ((∃ d ∈ info.ownDocs, d.hasBenchmarks = true) →
        ∃ d ∈ info.ownDocs, s.shows d = true ∧ d.hasBenchmarks = true)) := by
  have hflagged := flagged_of_parse hparse hinfo
  refine ⟨hflagged.listed, ?_, ?_, hflagged.benchmarks_listed_iff⟩
  · rw [hflagged.examples, List.any_eq_true]
  · rw [hflagged.benchmarks, List.any_eq_true]

/-! ## A flag without benchmarks -/

/-- A pattern does nothing but restrict the lists of the library that there is without it. -/
theorem parse_of_grep {s : Session} {text : Text} {library : Library} {errors : List CommentError}
    (hgrep : s.grep = none) (hparse : s.parse text = (.ok library, errors)) (p : Finder) :
    { s with grep := some p }.parse text
      = (.ok { library with
          namespaces := library.namespaces.map (·.restrict p)
          docs := docsMatching p library.docs }, errors) := by
  have hlanguage := language_of_parse hparse
  rw [parse_eq_document hlanguage, document] at hparse
  rw [parse_eq_document (s := { s with grep := some p }) hlanguage, document]
  unfold associator at hparse ⊢
  dsimp only at hparse ⊢
  split at hparse
  · cases hparse
  · cases hparse
  · next index hindex =>
    split at hparse
    · cases hparse
    · next docs hdocs =>
      cases hparse
      simp only [assemble, hgrep]
      rfl

/-- A source that documents `a.f`, with a benchmark, and `a.g`. -/
def flaggedText : Text :=
  "/**\n * @benchmarks\n * a.f() // one\n */\na.f = function() \x7b\x7d;\n"
    ++ "/** Two. */\na.g = function() \x7b\x7d;\n"

/-- The tree of an assignment of a function to a member, from a given byte on. -/
def assignmentTree (start : Nat) : SyntaxTree :=
  .node "expression_statement" true start (start + 20) none
    [.node "assignment_expression" true start (start + 19) none
      [.node "member_expression" true start (start + 3) (some "left")
        [.node "identifier" true start (start + 1) (some "object") [],
         .node "property_identifier" true (start + 2) (start + 3) (some "property") []],
       .node "function_expression" true (start + 6) (start + 19) (some "right") []]]

/-- The tree of `flaggedText`. -/
def flaggedTree : SyntaxTree :=
  .node "program" true 0 93 none
    [.node "comment" true 0 38 none [], assignmentTree 39,
     .node "comment" true 60 71 none [], assignmentTree 72]

/-- What can be seen of the docs of `flaggedText`: names, groups, and whether there are
benchmarks. -/
def flaggedDocs : List (Text × Text × Bool) := [("a.f", "a", true), ("a.g", "a", false)]

/-- The converters with which `flaggedText` is read. -/
def flaggedConverters : Converters := ⟨fun _ => ⟨false, flaggedTree⟩, id, Pattern.compile⟩

/-- The pattern that is found in names with a `g`. -/
def letterPattern : Finder := Pattern.finder ⟨"g", .char false 'g', 0⟩

/-- A session that reads `flaggedText`, with or without a pattern. -/
def flaggedSession (grep : Option Finder) : Session where
  settings := { grep := some "g" }
  table := scriptTable
  script := flaggedConverters.script
  builder := ⟨Handler.defaults, [], flaggedConverters.script⟩
  renderer := .plain
  grep := grep

/-- The namespace `a` has the flag of `a.f`, and lists `a.g` alone. -/
theorem exists_parse_flagged : ∃ library errors,
    (flaggedSession letterPattern).parse flaggedText = (.ok library, errors) ∧
      ∃ info ∈ library.namespaces, info.hasBenchmarks = true ∧
        ∀ d ∈ info.allMembers, d.hasBenchmarks = false := by
  have hsource : Source.parse (flaggedSession none).script flaggedText
      = ⟨flaggedText, .ofTree flaggedText flaggedTree,
          BlockComment.ofTree flaggedText flaggedTree⟩ :=
    Source.ofTree_of_pairwise (by decide +kernel)
  obtain ⟨library, errors, hparse, hdocs⟩ : ∃ library errors,
      (flaggedSession none).parse flaggedText = (.ok library, errors) ∧
        library.docs.map (fun d => (d.name, d.groupKey, d.hasBenchmarks)) = flaggedDocs := by
    refine exists_parse_eq_ok ?_
    unfold parse
    rw [hsource]
    decide +kernel
  obtain ⟨f, hf, hview⟩ := List.mem_map.mp
    (hdocs ▸ (by decide : (("a.f", "a", true) : Text × Text × Bool) ∈ flaggedDocs))
  have hname : f.name = "a.f" := congrArg (·.1) hview
  have hgroup : f.groupKey = "a" := congrArg (·.2.1) hview
  have hflag : f.hasBenchmarks = true := congrArg (·.2.2) hview
  have hinfo : NamespaceInfo.build (Groups.ofDocs library.docs) "a" ∈ library.namespaces := by
    rw [namespaces_eq_aggregate rfl hparse]
    exact NamespaceInfo.mem_aggregate.mpr ⟨f, hf, by rw [hgroup]⟩
  have hrestricted := parse_of_grep rfl hparse letterPattern
  refine ⟨_, errors, hrestricted, _, List.mem_map_of_mem hinfo, ?_, fun d hd => ?_⟩
  · have hlisted : f ∈ (NamespaceInfo.build (Groups.ofDocs library.docs) "a").allMembers :=
      NamespaceInfo.mem_allMembers_build.mpr (.inr ⟨hf, hgroup, by rw [hname]; decide⟩)
    exact List.any_eq_true.mpr ⟨f, hlisted, hflag⟩
  · obtain ⟨hlisted, hfound⟩ := List.mem_filter.mp hd
    have hall : ∀ v ∈ flaggedDocs, letterPattern.foundIn v.1 = true → v.2.2 = false := by decide
    exact hall _ (hdocs ▸ List.mem_map_of_mem (NamespaceInfo.mem_of_mem_allMembers hlisted)) hfound

theorem flags_listed_flagged : ∃ library errors,
    (flaggedSession letterPattern).parse flaggedText = (.ok library, errors) ∧
      ∃ info ∈ library.namespaces, info.hasBenchmarks = true ∧
        info.allMembers = info.ownDocs.filter (flaggedSession letterPattern).shows ∧
        (info.hasExamples = true ↔ ∃ d ∈ info.allMembers, d.hasExamples = true) ∧
        ∃ d ∈ info.ownDocs, d.hasBenchmarks = true := by
  obtain ⟨library, errors, hparse, info, hinfo, hflag, -⟩ := exists_parse_flagged
  obtain ⟨hlisted, hexamples, hbenchmarks, -⟩ := flags_listed _ flaggedText hparse hinfo
  exact ⟨library, errors, hparse, info, hinfo, hflag, hlisted, hexamples, hbenchmarks.mp hflag⟩

/-- **A flag without benchmarks.** With a pattern among the settings, a namespace can have the flag
for benchmarks although no doc that it lists has any. -/
theorem flag_without_benchmarks :
    start flaggedConverters { grep := some "g" } = .ok (flaggedSession letterPattern) ∧
      ∃ library errors, (flaggedSession letterPattern).parse flaggedText = (.ok library, errors) ∧
        ∃ info ∈ library.namespaces,
          ¬ (info.hasBenchmarks = true ↔ ∃ d ∈ info.allMembers, d.hasBenchmarks = true) := by
  refine ⟨rfl, ?_⟩
  obtain ⟨library, errors, hparse, info, hinfo, hflag, hnone⟩ := exists_parse_flagged
  refine ⟨library, errors, hparse, info, hinfo, fun hiff => ?_⟩
  obtain ⟨d, hd, hbenchmarks⟩ := hiff.mp hflag
  rw [hnone d hd] at hbenchmarks
  cases hbenchmarks

end Session

end DocModel
