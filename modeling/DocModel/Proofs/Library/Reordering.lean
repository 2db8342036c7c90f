import DocModel.Proofs.Library.Aggregation

/-!
# The order of docs does not matter

The namespaces of some docs are made in a way that looks at the order of the docs: groups appear in
the order of their first docs, a doc goes behind the others of its group, and the constructor of a
namespace is the first doc of its name. Docs in another order have the same namespaces all the same,
if nothing is left to that order: each name is borne by one doc, and no two docs of a group agree in
all that the order of members looks at (`NamespaceInfo.aggregate_perm`).

A constructor can then be found in one way only, and each of the sorts that follow has one result,
because its order tells any two of the docs apart (`mergeSort_eq_of_perm`). The private members need
no condition of their own: they are sorted from a list that is the same already.
-/

namespace DocModel

/-! ## The order of texts -/

namespace Text

theorem le_cons_iff {a b : Char} {s t : Text} :
    le (a :: s) (b :: t) = true ↔ a.toNat < b.toNat ∨ a = b ∧ le s t = true := by
  have heq : a.toNat = b.toNat ↔ a = b := ⟨Char.toNat_inj.mp, congrArg Char.toNat⟩
  rw [le, Bool.or_eq_true, Bool.and_eq_true, decide_eq_true_eq, beq_iff_eq, heq]

theorem le_trans {s t u : Text} (hst : le s t = true) (htu : le t u = true) : le s u = true := by
  induction s generalizing t u with
  | nil => rfl
  | cons a s ih =>
    cases t with
    | nil => cases hst
    | cons b t =>
      cases u with
      | nil => cases htu
      | cons c u =>
        rw [le_cons_iff] at hst htu ⊢
        obtain hab | ⟨rfl, hst⟩ := hst
        · obtain hbc | ⟨rfl, -⟩ := htu
          · exact .inl (Nat.lt_trans hab hbc)
          · exact .inl hab
        · exact htu.imp_right fun ⟨hac, htu⟩ => ⟨hac, ih hst htu⟩

theorem le_total (s t : Text) : (le s t || le t s) = true := by
  rw [Bool.or_eq_true]
  induction s generalizing t with
  | nil => exact .inl rfl
  | cons a s ih =>
    cases t with
    | nil => exact .inr rfl
    | cons b t =>
      rw [le_cons_iff, le_cons_iff]
      obtain hlt | heq | hgt := Nat.lt_trichotomy a.toNat b.toNat
      · exact .inl (.inl hlt)
      · have hab : a = b := Char.toNat_inj.mp heq
        exact (ih t).imp (fun h => .inr ⟨hab, h⟩) fun h => .inr ⟨hab.symm, h⟩
      · exact .inr (.inl hgt)

theorem le_antisymm {s t : Text} (hst : le s t = true) (hts : le t s = true) : s = t := by
  induction s generalizing t with
  | nil =>
    cases t with
    | nil => rfl
    | cons b t => cases hts
  | cons a s ih =>
    cases t with
    | nil => cases hst
    | cons b t =>
      rw [le_cons_iff] at hst hts
      obtain hab | ⟨rfl, hst⟩ := hst
      · obtain hba | ⟨rfl, -⟩ := hts
        · exact absurd hab (Nat.lt_asymm hba)
        · exact absurd hab (Nat.lt_irrefl _)
      · obtain hba | ⟨-, hts⟩ := hts
        · exact absurd hba (Nat.lt_irrefl _)
        · rw [ih hst hts]

end Text

/-! ## The order of members -/

namespace FunctionDoc

theorem memberLe_iff {d e : FunctionDoc} :
    d.memberLe e = true ↔
      d.isStatic = true ∧ e.isStatic = false ∨
        d.isStatic = e.isStatic ∧ Text.le d.shortName e.shortName = true := by
  unfold memberLe
  cases d.isStatic <;> cases e.isStatic <;> simp

theorem memberLe_trans (d e f : FunctionDoc) (hde : d.memberLe e = true)
    (hef : e.memberLe f = true) : d.memberLe f = true := by
  rw [memberLe_iff] at hde hef ⊢
  obtain ⟨hd, he⟩ | ⟨hstatic, hde⟩ := hde
  · obtain ⟨he', -⟩ | ⟨hstatic, -⟩ := hef
    · rw [he] at he'
      cases he'
    · exact .inl ⟨hd, hstatic ▸ he⟩
  · rw [hstatic]
    exact hef.imp_right fun ⟨hstatic', hef⟩ => ⟨hstatic', Text.le_trans hde hef⟩

theorem memberLe_total (d e : FunctionDoc) : (d.memberLe e || e.memberLe d) = true := by
  have htotal := Text.le_total d.shortName e.shortName
  rw [Bool.or_eq_true] at htotal ⊢
  rw [memberLe_iff, memberLe_iff]
  cases d.isStatic <;> cases e.isStatic <;> simp [htotal]

/-- Docs that stand before each other agree in all that the order of members looks at. -/
theorem eq_of_memberLe {d e : FunctionDoc} (hde : d.memberLe e = true)
    (hed : e.memberLe d = true) : d.isStatic = e.isStatic ∧ d.shortName = e.shortName := by
  rw [memberLe_iff] at hde hed
  obtain ⟨hd, he⟩ | ⟨hstatic, hde⟩ := hde
  · rw [hd, he] at hed
    simp at hed
  · obtain ⟨he, hd⟩ | ⟨-, hed⟩ := hed
    · rw [hd, he] at hstatic
      cases hstatic
    · exact ⟨hstatic, Text.le_antisymm hde hed⟩

end FunctionDoc

/-! ## What an order leaves open -/

/-- **A sort has one result if its order tells the members of the list apart**, in whatever order
they are given. -/
theorem mergeSort_eq_of_perm {α : Type} {le : α → α → Bool} {l l' : List α}
    (htrans : ∀ a b c, le a b = true → le b c = true → le a c = true)
    (htotal : ∀ a b, (le a b || le b a) = true)
    (hanti : ∀ a ∈ l, ∀ b ∈ l, le a b = true → le b a = true → a = b)
    (hperm : l.Perm l') : l.mergeSort le = l'.mergeSort le := by
  have hsorted : (l.mergeSort le).Perm (l'.mergeSort le) :=
    ((List.mergeSort_perm l le).trans hperm).trans (List.mergeSort_perm l' le).symm
  refine List.Perm.eq_of_pairwise (fun a b ha hb => ?_) (List.pairwise_mergeSort htrans htotal l)
    (List.pairwise_mergeSort htrans htotal l') hsorted
  exact hanti a (List.mem_mergeSort.mp ha) b (hperm.mem_iff.mpr (List.mem_mergeSort.mp hb))

/-- A search has one result if only one member of the list can be found. -/
theorem find?_eq_of_mem_iff {α : Type} {p : α → Bool} {l l' : List α}
    (hmem : ∀ a, a ∈ l ↔ a ∈ l')
    (hunique : ∀ a ∈ l, ∀ b ∈ l, p a = true → p b = true → a = b) : l.find? p = l'.find? p := by
  cases hfind : l.find? p with
  | none =>
    refine (List.find?_eq_none.mpr fun a ha => ?_).symm
    exact List.find?_eq_none.mp hfind a ((hmem a).mpr ha)
  | some a =>
    have ha : a ∈ l := List.mem_of_find?_eq_some hfind
    obtain ⟨b, hb⟩ : ∃ b, l'.find? p = some b :=
      Option.isSome_iff_exists.mp
        (List.find?_isSome.mpr ⟨a, (hmem a).mp ha, List.find?_some hfind⟩)
    have hbl : b ∈ l := (hmem b).mpr (List.mem_of_find?_eq_some hb)
    rw [hb, hunique a ha b hbl (List.find?_some hfind) (List.find?_some hb)]

/-! ## Docs in another order -/

section Perm

variable {docs docs' : List FunctionDoc} (hperm : docs.Perm docs')
include hperm

/-- The same groups appear, if in another order. -/
theorem groupKeys_perm : (groupKeys docs).Perm (groupKeys docs') := by
  refine (List.perm_ext_iff_of_nodup (nodup_groupKeys _) (nodup_groupKeys _)).mpr fun key => ?_
  rw [mem_groupKeys, mem_groupKeys]
  simp only [hperm.mem_iff]

namespace NamespaceInfo

theorem constructor_eq_of_perm (hnames : (docs.map (·.name)).Nodup) (key : Text) :
    (inGroupOrder docs).find? (·.name = key) = (inGroupOrder docs').find? (·.name = key) := by
  refine find?_eq_of_mem_iff (fun d => ?_) fun d hd e he hdkey hekey => ?_
  · rw [mem_inGroupOrder, mem_inGroupOrder, hperm.mem_iff]
  · refine List.inj_on_of_nodup_map hnames (mem_inGroupOrder.mp hd) (mem_inGroupOrder.mp he) ?_
    exact (of_decide_eq_true hdkey).trans (of_decide_eq_true hekey).symm

theorem members_eq_of_perm
    (hplaces : (docs.map fun d => (d.groupKey, d.isStatic, d.shortName)).Nodup) (key : Text) :
    ((docs.filter (·.groupKey = key)).filter (·.name ≠ key)).mergeSort FunctionDoc.memberLe
      = ((docs'.filter (·.groupKey = key)).filter (·.name ≠ key)).mergeSort
          FunctionDoc.memberLe := by
  refine mergeSort_eq_of_perm FunctionDoc.memberLe_trans FunctionDoc.memberLe_total
    (fun d hd e he hde hed => ?_) ((hperm.filter _).filter _)
  obtain ⟨hd, hdkey⟩ := List.mem_filter.mp (List.mem_filter.mp hd).1
  obtain ⟨he, hekey⟩ := List.mem_filter.mp (List.mem_filter.mp he).1
  obtain ⟨hstatic, hshort⟩ := FunctionDoc.eq_of_memberLe hde hed
  refine List.inj_on_of_nodup_map hplaces hd he ?_
  rw [of_decide_eq_true hdkey, of_decide_eq_true hekey, hstatic, hshort]

/-- **A namespace is the same for docs in another order.** All that is listed comes from its
constructor and its members. -/
theorem build_eq_of_perm (hnames : (docs.map (·.name)).Nodup)
    (hplaces : (docs.map fun d => (d.groupKey, d.isStatic, d.shortName)).Nodup) (key : Text) :
    build (Groups.ofDocs docs) key = build (Groups.ofDocs docs') key := by
  unfold build
  rw [Groups.flatMap_ofDocs, Groups.flatMap_ofDocs, Groups.lookup_ofDocs, Groups.lookup_ofDocs,
    constructor_eq_of_perm hperm hnames, members_eq_of_perm hperm hplaces]

end NamespaceInfo

end Perm

namespace NamespaceInfo

/-- **The order of docs does not matter.** If docs have different names, and docs of one group
differ in their short names or in whether they are static, the same docs in another order have the
same namespaces, whichever are requested. -/
theorem aggregate_perm {docs docs' : List FunctionDoc} (hperm : docs.Perm docs')
    (hnames : (docs.map (·.name)).Nodup)
    (hplaces : (docs.map fun d => (d.groupKey, d.isStatic, d.shortName)).Nodup)
    (requested : List Text) : aggregate docs requested = aggregate docs' requested := by
  have hbuild : build (Groups.ofDocs docs) = build (Groups.ofDocs docs') := by
    funext key
    exact build_eq_of_perm hperm hnames hplaces key
  have hkeys : (groupKeys docs).mergeSort Text.le = (groupKeys docs').mergeSort Text.le :=
    mergeSort_eq_of_perm (fun _ _ _ => Text.le_trans) Text.le_total
      (fun _ _ _ _ => Text.le_antisymm) (groupKeys_perm hperm)
  rw [aggregate, aggregate, Groups.map_fst_ofDocs, Groups.map_fst_ofDocs, hkeys, hbuild]

/-- A constructor behind two of its members, and two private docs. -/
def scatteredDocs : List FunctionDoc :=
  [{ QualifiedName.parse "lib#run" with number := 0 },
   { QualifiedName.parse "zip" with number := 1, isStatic := true, isPrivate := true },
   { QualifiedName.parse "lib.run" with number := 2, isStatic := true },
   { QualifiedName.parse "lib" with number := 3, isStatic := true, isConstructor := true },
   { QualifiedName.parse "lib.abs" with number := 4, isStatic := true, isPrivate := true }]

theorem aggregate_perm_scattered :
    (scatteredDocs.reverse.map (·.number) = [4, 3, 2, 1, 0]) ∧
      aggregate scatteredDocs [] = aggregate scatteredDocs.reverse [] ∧
      aggregate scatteredDocs ["lib", "no"] = aggregate scatteredDocs.reverse ["lib", "no"] := by
  have hperm : scatteredDocs.Perm scatteredDocs.reverse := (List.reverse_perm _).symm
  have hnames : (scatteredDocs.map (·.name)).Nodup := by decide
  have hplaces : (scatteredDocs.map fun d => (d.groupKey, d.isStatic, d.shortName)).Nodup := by
    decide
  exact ⟨rfl, aggregate_perm hperm hnames hplaces [], aggregate_perm hperm hnames hplaces _⟩

end NamespaceInfo

end DocModel
