import DocModel.Proofs.Library.Reordering

/-!
# How a namespace is arranged

A namespace lists its constructor and then its members. The members are the docs of its group that
bear another name, static ones before those of instances, either by short name; docs that agree in
both stay in the order in which they were given (`NamespaceInfo.Arranges`). The constructor is the
first doc with the name of the namespace, wherever it belongs: a private doc is listed by the group
of private docs and again by the namespace that it constructs.

A sort that is stable leaves any part of a list alone that its order does not tell apart
(`filter_mergeSort`). No doc is listed twice by one namespace, since the constructor bears
its name and no member does.
-/

namespace DocModel

/-! ## What a sort leaves alone -/

/-- **A part of a list that the order does not tell apart is left alone by a sort.** -/
theorem filter_mergeSort {α : Type} {le : α → α → Bool} {p : α → Bool} (l : List α)
    (htrans : ∀ a b c, le a b = true → le b c = true → le a c = true)
    (htotal : ∀ a b, (le a b || le b a) = true)
    (hp : ∀ a b, p a = true → p b = true → le a b = true) :
    (l.mergeSort le).filter p = l.filter p := by
  have hpart : (l.filter p).Pairwise fun a b => le a b = true := by
    refine List.pairwise_of_forall_mem_list fun a ha b hb => ?_
    exact hp a b (List.mem_filter.mp ha).2 (List.mem_filter.mp hb).2
  -- The part is sorted already, so it is found in the sorted list, where there is no more of it.
  have hsublist : (l.filter p).Sublist ((l.mergeSort le).filter p) := by
    have hmerged := (List.sublist_mergeSort htrans htotal hpart List.filter_sublist).filter p
    rwa [List.filter_filter, show (fun a => p a && p a) = p from funext fun a => Bool.and_self _]
      at hmerged
  exact (hsublist.eq_of_length ((List.mergeSort_perm l le).filter p).length_eq.symm).symm

theorem Text.le_refl (t : Text) : le t t = true := (Bool.or_self _).symm.trans (le_total t t)

/-- Names that are sorted and all different increase strictly. -/
theorem pairwise_lt_mergeSort {keys : List Text} (h : keys.Nodup) :
    (keys.mergeSort Text.le).Pairwise fun s t => Text.le s t = true ∧ s ≠ t := by
  have hnodup : (keys.mergeSort Text.le).Nodup := (List.mergeSort_perm keys _).nodup_iff.mpr h
  have hsorted : (keys.mergeSort Text.le).Pairwise fun s t => Text.le s t = true :=
    List.pairwise_mergeSort (fun s t u => @Text.le_trans s t u) Text.le_total keys
  exact hsorted.and hnodup

/-! ## Members -/

/-- **Whether a doc is a member of a namespace**: it belongs to the group, and bears another
name. -/
def FunctionDoc.IsMemberOf (d : FunctionDoc) (key : Text) : Prop := d.groupKey = key ∧ d.name ≠ key

instance (d : FunctionDoc) (key : Text) : Decidable (d.IsMemberOf key) :=
  inferInstanceAs (Decidable (_ ∧ _))

namespace NamespaceInfo

theorem members_build (docs : List FunctionDoc) (key : Text) :
    (build (Groups.ofDocs docs) key).members
      = (docs.filter (·.IsMemberOf key)).mergeSort FunctionDoc.memberLe := by
  show ((((Groups.ofDocs docs).lookup key).getD []).filter _).mergeSort _ = _
  rw [Groups.lookup_ofDocs, List.filter_filter]
  refine congrArg (List.mergeSort · _) (List.filter_congr fun d _ => ?_)
  rw [Bool.eq_iff_iff, Bool.and_eq_true, decide_eq_true_eq, decide_eq_true_eq, decide_eq_true_eq]
  exact and_comm

theorem constructor_build (docs : List FunctionDoc) (key : Text) :
    (build (Groups.ofDocs docs) key).constructor? = (inGroupOrder docs).find? (·.name = key) := by
  show ((Groups.ofDocs docs).flatMap (·.2)).find? _ = _
  rw [Groups.flatMap_ofDocs]

/-- **How a namespace of some docs is arranged.** -/
structure Arranges (docs : List FunctionDoc) (info : NamespaceInfo) : Prop where
  members : info.members.Perm (docs.filter (·.IsMemberOf info.name))
  /-- A static member stands before every member of instances. -/
  static_first : info.members.Pairwise fun d e => e.isStatic = true → d.isStatic = true
  by_shortName : info.members.Pairwise fun d e =>
    d.isStatic = e.isStatic → Text.le d.shortName e.shortName = true
  /-- Members that agree in both stand in the order of the docs. -/
  stable : ∀ (isStatic : Bool) (shortName : Text),
    info.members.filter (fun d => d.isStatic = isStatic ∧ d.shortName = shortName)
      = docs.filter fun d =>
          d.IsMemberOf info.name ∧ d.isStatic = isStatic ∧ d.shortName = shortName
  constructor_first : info.constructor? = (inGroupOrder docs).find? (·.name = info.name)
  constructor_iff : info.constructor?.isSome ↔ ∃ d ∈ docs, d.name = info.name
  listed : info.allMembers = info.constructor?.toList ++ info.members
  /-- No doc is listed twice. -/
  nodup : (info.allMembers.map (·.number)).Nodup
  privateMembers : info.privateMembers.Perm (info.allMembers.filter (·.isPrivate))
  private_by_name : info.privateMembers.Pairwise fun d e => Text.le d.name e.name = true

section Build

variable (docs : List FunctionDoc) (key : Text)

theorem pairwise_members_build :
    (build (Groups.ofDocs docs) key).members.Pairwise fun d e => d.memberLe e = true := by
  rw [members_build]
  exact List.pairwise_mergeSort FunctionDoc.memberLe_trans FunctionDoc.memberLe_total _

theorem members_build_perm :
    (build (Groups.ofDocs docs) key).members.Perm (docs.filter (·.IsMemberOf key)) := by
  rw [members_build]
  exact List.mergeSort_perm _ _

/-- Members that agree in all that their order looks at stay in the order of the docs. -/
theorem filter_members_build (isStatic : Bool) (shortName : Text) :
    (build (Groups.ofDocs docs) key).members.filter
        (fun d => d.isStatic = isStatic ∧ d.shortName = shortName)
      = docs.filter fun d =>
          d.IsMemberOf key ∧ d.isStatic = isStatic ∧ d.shortName = shortName := by
  rw [members_build, filter_mergeSort _ FunctionDoc.memberLe_trans FunctionDoc.memberLe_total,
    List.filter_filter]
  · refine List.filter_congr fun d _ => ?_
    rw [← Bool.decide_and, decide_eq_decide]
    exact and_comm
  · intro d e hd he
    obtain ⟨hdstatic, hdshort⟩ := of_decide_eq_true hd
    obtain ⟨hestatic, heshort⟩ := of_decide_eq_true he
    rw [FunctionDoc.memberLe_iff, hdstatic, hestatic, hdshort, heshort]
    exact .inr ⟨rfl, Text.le_refl shortName⟩

theorem isSome_constructor_build :
    (build (Groups.ofDocs docs) key).constructor?.isSome ↔ ∃ d ∈ docs, d.name = key := by
  rw [constructor_build, List.find?_isSome]
  simp only [mem_inGroupOrder, decide_eq_true_eq]

variable {docs} (hdistinct : (docs.map (·.number)).Nodup)
include hdistinct

/-- No doc is listed twice: the constructor bears the name of the namespace, and no member does. -/
theorem nodup_allMembers_build :
    ((build (Groups.ofDocs docs) key).allMembers.map (·.number)).Nodup := by
  have hmembers := members_build_perm docs key
  have hnumbers : ((build (Groups.ofDocs docs) key).members.map (·.number)).Nodup :=
    (hmembers.map _).nodup_iff.mpr (hdistinct.sublist (List.filter_sublist.map _))
  show ((Option.toList (build (Groups.ofDocs docs) key).constructor? ++ _).map _).Nodup
  cases hfirst : (build (Groups.ofDocs docs) key).constructor? with
  | none => exact hnumbers
  | some first =>
    refine List.nodup_cons.mpr ⟨fun hmem => ?_, hnumbers⟩
    obtain ⟨d, hd, hnumber⟩ := List.mem_map.mp hmem
    obtain ⟨hdocs, hmember⟩ := List.mem_filter.mp (hmembers.mem_iff.mp hd)
    rw [constructor_build] at hfirst
    have hsame : d = first := List.inj_on_of_nodup_map hdistinct hdocs
      (mem_inGroupOrder.mp (List.mem_of_find?_eq_some hfirst)) hnumber
    have hname : first.name = key := by simpa using List.find?_some hfirst
    exact (of_decide_eq_true hmember).2 (hsame ▸ hname)

theorem arranges_build : (build (Groups.ofDocs docs) key).Arranges docs where
  members := members_build_perm docs key
  static_first := by
    refine (pairwise_members_build docs key).imp fun {d e} hle he => ?_
    obtain ⟨hd, -⟩ | ⟨hstatic, -⟩ := FunctionDoc.memberLe_iff.mp hle
    · exact hd
    · exact hstatic.trans he
  by_shortName := by
    refine (pairwise_members_build docs key).imp fun {d e} hle hstatic => ?_
    obtain ⟨hd, he⟩ | ⟨-, hshort⟩ := FunctionDoc.memberLe_iff.mp hle
    · rw [hd, he] at hstatic
      cases hstatic
    · exact hshort
  stable := filter_members_build docs key
  constructor_first := constructor_build docs key
  constructor_iff := isSome_constructor_build docs key
  listed := rfl
  nodup := nodup_allMembers_build key hdistinct
  privateMembers := List.mergeSort_perm _ _
  private_by_name :=
    List.pairwise_mergeSort (fun d e f => @Text.le_trans d.name e.name f.name)
      (fun d e => Text.le_total d.name e.name) _

end Build

theorem map_name_aggregate_nil (docs : List FunctionDoc) :
    (aggregate docs []).map (·.name) = (groupKeys docs).mergeSort Text.le := by
  rw [aggregate, if_pos List.isEmpty_nil, Groups.map_fst_ofDocs, List.map_map]
  exact List.map_id _

/-- **How namespaces are arranged.** Every namespace of some docs, requested or not, holds the
members, the constructor and the private docs that are its own, in their order. There is one for
each that is requested or, if none is, one for each group of docs, and then their names increase
strictly. -/
theorem aggregate_arranges {docs : List FunctionDoc} (hdistinct : (docs.map (·.number)).Nodup) :
    (∀ requested, ∀ info ∈ aggregate docs requested, info.Arranges docs) ∧
      (∀ requested, requested ≠ [] → (aggregate docs requested).map (·.name) = requested) ∧
      (∀ key, key ∈ (aggregate docs []).map (·.name) ↔ ∃ d ∈ docs, d.groupKey = key) ∧
      ((aggregate docs []).map (·.name)).Pairwise fun s t => Text.le s t = true ∧ s ≠ t := by
  refine ⟨fun requested info hinfo => ?_, fun requested hne => ?_, fun key => ?_, ?_⟩
  · obtain ⟨key, -, rfl⟩ := List.mem_map.mp hinfo
    exact arranges_build key hdistinct
  · rw [aggregate, if_neg (mt List.isEmpty_iff.mp hne), List.map_map]
    exact List.map_id _
  · rw [map_name_aggregate_nil, List.mem_mergeSort, mem_groupKeys]
  · rw [map_name_aggregate_nil]
    exact pairwise_lt_mergeSort (nodup_groupKeys docs)

/-- A private constructor behind its members, two of which agree in all that their order
looks at. -/
def tiedDocs : List FunctionDoc :=
  [{ QualifiedName.parse "lib#run" with number := 0 },
   { QualifiedName.parse "lib.run" with number := 1, isStatic := true },
   { QualifiedName.parse "lib.run" with number := 2, isStatic := true },
   { QualifiedName.parse "lib" with number := 3, isStatic := true, isPrivate := true },
   { QualifiedName.parse "Zip.map" with number := 4, isStatic := true }]

theorem aggregate_arranges_tied :
    (tiedDocs.map (·.number)).Nodup ∧
      ((aggregate tiedDocs []).map (·.name)).Pairwise (fun s t => Text.le s t = true ∧ s ≠ t) ∧
      ∃ info ∈ aggregate tiedDocs [], info.name = "lib" ∧ info.Arranges tiedDocs ∧
        info.constructor?.map (·.number) = some 3 ∧
        (info.members.filter fun d =>
          d.isStatic = true ∧ d.shortName = ("run" : Text)).map (·.number) = [1, 2] := by
  have hdistinct : (tiedDocs.map (·.number)).Nodup := by decide
  obtain ⟨harranges, -, hkeys, hsorted⟩ := aggregate_arranges hdistinct
  obtain ⟨info, hinfo, hname⟩ := List.mem_map.mp ((hkeys "lib").mpr (by decide))
  have hinfo' := harranges [] info hinfo
  refine ⟨hdistinct, hsorted, info, hinfo, hname, hinfo', ?_, ?_⟩
  · rw [hinfo'.constructor_first, hname]
    decide
  · rw [hinfo'.stable, hname]
    decide

end NamespaceInfo

end DocModel
