import DocModel.Proofs.Library.Arrangement
import DocModel.Proofs.Name.NormalForm

/-!
# The name that namespaces suggest

A library that exports nothing is referred to by a name that its namespaces suggest: the first
segment of the first namespace with a member, where the namespaces stand in the order of their
names. So it is the first segment of the least group of which some doc is a member
(`NamespaceInfo.guessReference_eq`).

That group is a namespace of the library, unless it is the group of private docs. The name of the
latter stands among those of the namespaces, behind the ones that begin with a capital and before
those that begin with a small letter, and nothing passes it over: if no member belongs to a lesser
group, it is the name that is suggested (`NamespaceInfo.guessReference_placeholder`). Otherwise
a name of the library is (`NamespaceInfo.guessReference_aggregate`).
-/

namespace DocModel

/-- A search in a sorted list finds the least member that can be found. -/
theorem rel_of_find? {α : Type} {r : α → α → Prop} {p : α → Bool} {l : List α} {a b : α}
    (hsorted : l.Pairwise r) (hfind : l.find? p = some a) (hb : b ∈ l) (hpb : p b = true) :
    b = a ∨ r a b := by
  obtain ⟨-, before, after, rfl, hbefore⟩ := List.find?_eq_some_iff_append.mp hfind
  obtain hb | hb := List.mem_append.mp hb
  · have hnot := hbefore b hb
    rw [hpb] at hnot
    cases hnot
  · obtain rfl | hb := List.mem_cons.mp hb
    · exact .inl rfl
    · exact .inr (List.rel_of_pairwise_cons (List.pairwise_append.mp hsorted).2.1 hb)

/-- **A member of the least group that has any.** -/
structure IsFirstMember (docs : List FunctionDoc) (d : FunctionDoc) : Prop where
  mem : d ∈ docs
  isMember : d.IsMemberOf d.groupKey
  least : ∀ e ∈ docs, e.IsMemberOf e.groupKey → Text.le d.groupKey e.groupKey = true

/-- **A name under which docs can be found**: the first segment of the namespace of one of them. -/
def IsRootOf (docs : List FunctionDoc) (name : Text) : Prop :=
  ∃ d ∈ docs, d.owner?.bind QualifiedName.firstSegment? = some name

instance (docs : List FunctionDoc) (name : Text) : Decidable (IsRootOf docs name) :=
  inferInstanceAs (Decidable (∃ d ∈ docs, _))

/-- The name of the group of private docs is a single segment. -/
theorem firstSegment?_privateGroup :
    QualifiedName.firstSegment? privateGroup = some privateGroup := by decide

/-- A member that is not private belongs to a namespace, if docs without a namespace bear their
short names. -/
theorem FunctionDoc.owner?_of_isMemberOf {d : FunctionDoc}
    (hnamed : d.owner?.getD [] = [] → d.name = d.shortName) (hprivate : d.isPrivate = false)
    (h : d.IsMemberOf d.groupKey) : d.owner? = some d.groupKey := by
  obtain ⟨-, hname⟩ := h
  unfold groupKey at hname ⊢
  rw [if_neg (Bool.eq_false_iff.mp hprivate)] at hname ⊢
  split at hname
  · next path howner =>
    split at hname
    · next hempty =>
      rw [howner, List.isEmpty_iff.mp hempty] at hnamed
      exact absurd (hnamed rfl) hname
    · next hne => rw [howner, if_neg hne]
  · next howner =>
    rw [howner] at hnamed
    exact absurd (hnamed rfl) hname

namespace NamespaceInfo

theorem hasMembers_build {docs : List FunctionDoc} {key : Text} :
    (!(build (Groups.ofDocs docs) key).members.isEmpty) = true ↔ ∃ d ∈ docs, d.IsMemberOf key := by
  rw [Bool.not_eq_true', List.isEmpty_eq_false_iff_exists_mem]
  simp only [(members_build_perm docs key).mem_iff, List.mem_filter, decide_eq_true_eq]

/-- **The name that namespaces suggest** is that of the least group with a member. -/
theorem guessReference_eq (docs : List FunctionDoc) :
    (∀ d ∈ docs, ¬ d.IsMemberOf d.groupKey) ∧ guessReference (aggregate docs []) = none ∨
      ∃ d, IsFirstMember docs d ∧
        guessReference (aggregate docs []) = QualifiedName.firstSegment? d.groupKey := by
  unfold guessReference
  cases hfind : (aggregate docs []).find? (!·.members.isEmpty) with
  | none =>
    refine .inl ⟨fun d hd hmember => ?_, rfl⟩
    have hnot := List.find?_eq_none.mp hfind _ (mem_aggregate.mpr ⟨d, hd, rfl⟩)
    exact hnot (hasMembers_build.mpr ⟨d, hd, hmember⟩)
  | some info =>
    obtain ⟨e, he, rfl⟩ := mem_aggregate.mp (List.mem_of_find?_eq_some hfind)
    have hmembers := List.find?_some hfind
    obtain ⟨d, hd, hkey, hname⟩ := hasMembers_build.mp hmembers
    refine .inr ⟨d, ⟨hd, ⟨rfl, hkey ▸ hname⟩, fun f hf hmember => ?_⟩, by rw [hkey]; rfl⟩
    have hsorted := pairwise_lt_mergeSort (nodup_groupKeys docs)
    rw [← map_name_aggregate_nil, List.pairwise_map] at hsorted
    obtain hsame | hless := rel_of_find? hsorted hfind (mem_aggregate.mpr ⟨f, hf, rfl⟩)
      (hasMembers_build.mpr ⟨f, hf, hmember⟩)
    · have hkeys : f.groupKey = e.groupKey := congrArg name hsame
      rw [hkey, hkeys]
      exact Text.le_refl e.groupKey
    · exact hkey ▸ hless.1

theorem guessReference_of_isFirstMember {docs : List FunctionDoc} {d : FunctionDoc}
    (h : IsFirstMember docs d) :
    guessReference (aggregate docs []) = QualifiedName.firstSegment? d.groupKey := by
  obtain ⟨hnone, -⟩ | ⟨e, he, hguess⟩ := guessReference_eq docs
  · exact absurd h.isMember (hnone d h.mem)
  · rw [hguess, Text.le_antisymm (he.least d h.mem h.isMember) (h.least e he.mem he.isMember)]

/-- **When the suggested name is a name of the library.** It is the first segment of the least group
that has a member. If docs without a namespace bear their short names, as all names do that are
read, that is the first segment of the namespace of some doc, and not the name of the group of
private docs, exactly if no member of the least group is private and the first segment of the group
is another name. -/
theorem guessReference_aggregate (docs : List FunctionDoc) :
    let guess := guessReference (aggregate docs [])
    ((∀ d ∈ docs, ¬ d.IsMemberOf d.groupKey) ∧ guess = none ∨
      ∃ d, IsFirstMember docs d ∧ guess = QualifiedName.firstSegment? d.groupKey) ∧
    ((∀ d ∈ docs, d.owner?.getD [] = [] → d.name = d.shortName) →
      ((guess = none ∨ ∃ name, guess = some name ∧ IsRootOf docs name ∧ name ≠ privateGroup) ↔
        ∀ d, IsFirstMember docs d →
          d.isPrivate = false ∧ QualifiedName.firstSegment? d.groupKey ≠ some privateGroup)) := by
  intro guess
  have hguess := guessReference_eq docs
  refine ⟨hguess, fun hnamed => ⟨fun hright d hd => ?_, fun hfirst => ?_⟩⟩
  · have hother : QualifiedName.firstSegment? d.groupKey ≠ some privateGroup := by
      rw [← guessReference_of_isFirstMember hd]
      intro hplaceholder
      obtain hnone | ⟨name, hname, -, hne⟩ := hright
      · exact Option.some_ne_none _ (hplaceholder.symm.trans hnone)
      · exact hne (Option.some.inj (hname.symm.trans hplaceholder))
    refine ⟨Bool.eq_false_iff.mpr fun hprivate => hother ?_, hother⟩
    rw [FunctionDoc.groupKey, if_pos hprivate]
    exact firstSegment?_privateGroup
  · obtain ⟨-, hnone⟩ | ⟨d, hd, hsome⟩ := hguess
    · exact .inl hnone
    · obtain ⟨hprivate, hother⟩ := hfirst d hd
      cases hsegment : QualifiedName.firstSegment? d.groupKey with
      | none => exact .inl (hsome.trans hsegment)
      | some name =>
        have howner := FunctionDoc.owner?_of_isMemberOf (hnamed d hd.mem) hprivate hd.isMember
        refine .inr ⟨name, hsome.trans hsegment, ⟨d, hd.mem, by rw [howner]; exact hsegment⟩, ?_⟩
        rintro rfl
        exact hother hsegment

/-! ## A placeholder for a name -/

/-- A private doc. -/
def hiddenDoc : FunctionDoc :=
  { QualifiedName.parse "helper" with number := 0, isStatic := true, isPrivate := true }

/-- The doc of a function with a given name. -/
def memberDoc (path : Text) : FunctionDoc :=
  { QualifiedName.parse path with number := 1, isStatic := true }

theorem guessReference_aggregate_capital :
    (∀ d ∈ [hiddenDoc, memberDoc "Lib.run"], d.owner?.getD [] = [] → d.name = d.shortName) ∧
      ∃ name, guessReference (aggregate [hiddenDoc, memberDoc "Lib.run"] []) = some name ∧
        IsRootOf [hiddenDoc, memberDoc "Lib.run"] name ∧ name ≠ privateGroup := by
  have hnamed : ∀ d ∈ [hiddenDoc, memberDoc "Lib.run"],
      d.owner?.getD [] = [] → d.name = d.shortName :=
    List.forall_mem_cons.mpr ⟨QualifiedName.name_parseUnder "helper" none,
      List.forall_mem_singleton.mpr (QualifiedName.name_parseUnder "Lib.run" none)⟩
  obtain ⟨-, hright⟩ := guessReference_aggregate [hiddenDoc, memberDoc "Lib.run"]
  have hfirst : IsFirstMember [hiddenDoc, memberDoc "Lib.run"] (memberDoc "Lib.run") :=
    ⟨List.mem_cons_of_mem _ List.mem_cons_self, by decide, by decide⟩
  refine ⟨hnamed, ((hright hnamed).mpr fun d hd => ?_).resolve_left ?_⟩
  · obtain rfl | hd' := List.mem_cons.mp hd.mem
    · exact absurd (hd.least _ hfirst.mem hfirst.isMember) (by decide)
    · rw [List.mem_singleton.mp hd']
      exact ⟨rfl, by decide⟩
  · rw [guessReference_of_isFirstMember hfirst]
    decide

/-- **The name of the group of private docs can be suggested**, where no doc has a namespace, and
also where one has. -/
theorem guessReference_placeholder :
    guessReference (aggregate [hiddenDoc] []) = some privateGroup ∧
      (∀ name, ¬ IsRootOf [hiddenDoc] name) ∧
      guessReference (aggregate [hiddenDoc, memberDoc "lib.run"] []) = some privateGroup ∧
      IsRootOf [hiddenDoc, memberDoc "lib.run"] "lib" ∧
      ¬ IsRootOf [hiddenDoc, memberDoc "lib.run"] privateGroup := by
  have halone : IsFirstMember [hiddenDoc] hiddenDoc :=
    ⟨List.mem_cons_self, by decide, by decide⟩
  have hbefore : IsFirstMember [hiddenDoc, memberDoc "lib.run"] hiddenDoc :=
    ⟨List.mem_cons_self, by decide, by decide⟩
  refine ⟨guessReference_of_isFirstMember halone, fun name => ?_,
    guessReference_of_isFirstMember hbefore, by decide, by decide⟩
  rintro ⟨d, hd, hroot⟩
  rw [List.mem_singleton.mp hd] at hroot
  cases hroot

end NamespaceInfo

end DocModel
