import DocModel.Proofs.Library.Nesting
import Mathlib.Logic.Function.Basic

/-!
# Private docs are elevated once

A private doc can be listed twice: every private doc by the group of private docs, and one that is a
constructor also by the namespace that bears its name. The lists of all namespaces, one after the
other, are therefore searched for docs that stand further up already, and what is left is each
private doc once (`elevatedDocs_perm`). None is missing, since each is a member of its group, unless
it bears the very name of the group.

Each of these docs is then given its methods. That is done one doc after the other, so a doc holds
what it was given last; as no doc comes twice, each holds its own methods, and a doc that is not
private keeps what it had (`elevatePrivate_assigns`).
-/

namespace DocModel

variable {docs : List FunctionDoc}

/-! ## Each doc once -/

theorem nodup_distinctDocs (docs : List FunctionDoc) :
    ((distinctDocs docs).map (·.number)).Nodup := by
  induction docs with
  | nil => exact List.nodup_nil
  | cons d docs ih =>
    refine List.nodup_cons.mpr ⟨fun hmem => ?_, ih.sublist (List.filter_sublist.map _)⟩
    obtain ⟨e, he, hnumber⟩ := List.mem_map.mp hmem
    exact of_decide_eq_true (List.mem_filter.mp he).2 hnumber

theorem nodup_elevatePrivate (infos : List NamespaceInfo) (docs : List FunctionDoc) :
    ((elevatePrivate infos docs).map (·.doc.number)).Nodup := by
  rw [elevatePrivate, List.map_map]
  exact nodup_distinctDocs _

theorem isPrivate_of_mem_elevatedDocs {requested : List Text} {d : FunctionDoc}
    (h : d ∈ elevatedDocs docs requested) : d.isPrivate = true := by
  rw [elevatedDocs_eq] at h
  obtain ⟨info, hinfo, hd⟩ := List.mem_flatMap.mp (mem_of_mem_distinctDocs h)
  obtain ⟨key, -, rfl⟩ := List.mem_map.mp hinfo
  exact (NamespaceInfo.mem_privateMembers_build.mp hd).2

/-- **The elevated docs are the private ones**, each once. -/
theorem elevatedDocs_perm (hdistinct : (docs.map (·.number)).Nodup)
    (hnames : ∀ d ∈ docs, d.name ≠ privateGroup) :
    (elevatedDocs docs []).Perm (docs.filter (·.isPrivate)) := by
  have hnodup : (elevatedDocs docs []).Nodup := by
    rw [elevatedDocs_eq]
    exact (nodup_distinctDocs _).of_map _
  refine (List.perm_ext_iff_of_nodup hnodup (hdistinct.of_map.filter _)).mpr fun d => ?_
  rw [List.mem_filter]
  constructor
  · intro hd
    exact ⟨mem_of_mem_elevatedDocs hd, isPrivate_of_mem_elevatedDocs hd⟩
  · rintro ⟨hd, hprivate⟩
    exact mem_elevatedDocs_nil (List.inj_on_of_nodup_map hdistinct) hd hprivate (hnames d hd)

/-! ## Methods -/

/-- **The methods of docs, by their numbers, when elevated docs have been given theirs**, one after
the other. -/
def assignMethods (methods : Nat → List FunctionDoc) (elevated : List ElevatedDoc) :
    Nat → List FunctionDoc :=
  elevated.foldl (fun m e => Function.update m e.doc.number e.methods) methods

section Assign

variable {elevated : List ElevatedDoc}

/-- A doc that is not elevated keeps its methods. -/
theorem assignMethods_of_notMem {n : Nat} (h : n ∉ elevated.map (·.doc.number))
    (methods : Nat → List FunctionDoc) : assignMethods methods elevated n = methods n := by
  induction elevated generalizing methods with
  | nil => rfl
  | cons e elevated ih =>
    obtain ⟨hne, hrest⟩ := not_or.mp (List.mem_cons.not.mp h)
    show assignMethods (Function.update methods e.doc.number e.methods) elevated n = methods n
    rw [ih hrest, Function.update_of_ne hne]

/-- An elevated doc has the methods it was given, if none is elevated twice. -/
theorem assignMethods_of_mem (hnodup : (elevated.map (·.doc.number)).Nodup) {e : ElevatedDoc}
    (he : e ∈ elevated) (methods : Nat → List FunctionDoc) :
    assignMethods methods elevated e.doc.number = e.methods := by
  induction elevated generalizing methods with
  | nil => cases he
  | cons first rest ih =>
    obtain ⟨hfirst, hrest⟩ := List.nodup_cons.mp hnodup
    show assignMethods (Function.update methods first.doc.number first.methods) rest _ = _
    obtain rfl | he := List.mem_cons.mp he
    · rw [assignMethods_of_notMem hfirst, Function.update_self]
    · exact ih hrest he _

/-- The methods of the docs of a library are those that its private docs were given, where there
were none before. -/
theorem Library.methodsOf_eq_assignMethods {l : Library}
    (hnodup : (l.privateDocs.map (·.doc.number)).Nodup) (d : FunctionDoc) :
    l.methodsOf d = assignMethods (fun _ => []) l.privateDocs d.number := by
  unfold methodsOf
  split
  · next e he =>
    obtain ⟨hmem, hnumber⟩ := mem_of_find he
    rw [← hnumber, assignMethods_of_mem hnodup hmem]
  · next hnone =>
    have hnot : d.number ∉ l.privateDocs.map (·.doc.number) := by
      intro hmem
      obtain ⟨e, he, hnumber⟩ := List.mem_map.mp hmem
      exact List.find?_eq_none.mp hnone e he (decide_eq_true hnumber)
    rw [assignMethods_of_notMem hnot]

end Assign

/-- **Private docs are elevated once.** Of docs that are told apart by their numbers, none with the
name of the group of private docs, the private ones are elevated, each once. Whatever methods the
docs had before, the private ones then have the docs of the namespace that bears their short name,
in their order, and the others have what they had. In a library, whose docs have no methods before,
those are the methods. -/
theorem elevatePrivate_assigns (hdistinct : (docs.map (·.number)).Nodup)
    (hnames : ∀ d ∈ docs, d.name ≠ privateGroup) :
    let elevated := elevatePrivate (NamespaceInfo.aggregate docs []) docs
    (elevated.map (·.doc.number)).Nodup ∧
      (elevated.map (·.doc)).Perm (docs.filter (·.isPrivate)) ∧
      (∀ methods : Nat → List FunctionDoc, ∀ d ∈ docs,
        assignMethods methods elevated d.number
          = if d.isPrivate then docs.filter (·.owner? = some d.shortName)
            else methods d.number) ∧
      ∀ l : Library, l.privateDocs = elevated → ∀ d : FunctionDoc,
        l.methodsOf d = assignMethods (fun _ => []) elevated d.number := by
  intro elevated
  have hperm : (elevated.map (·.doc)).Perm (docs.filter (·.isPrivate)) :=
    elevatedDocs_perm hdistinct hnames
  have hnodup : (elevated.map (·.doc.number)).Nodup := nodup_elevatePrivate _ docs
  refine ⟨hnodup, hperm, fun methods d hd => ?_, fun l hl d => ?_⟩
  · split
    · next hprivate =>
      obtain ⟨e, he, rfl⟩ := List.mem_map.mp
        (hperm.mem_iff.mpr (List.mem_filter.mpr ⟨hd, hprivate⟩))
      rw [assignMethods_of_mem hnodup he]
      obtain ⟨d', -, rfl⟩ := List.mem_map.mp he
      rfl
    · next hprivate =>
      refine assignMethods_of_notMem (fun hmem => hprivate ?_) methods
      obtain ⟨e, he, hnumber⟩ := List.mem_map.mp hmem
      obtain ⟨hedocs, heprivate⟩ := List.mem_filter.mp
        (hperm.mem_iff.mp (List.mem_map_of_mem he))
      rwa [← List.inj_on_of_nodup_map hdistinct hedocs hd hnumber]
  · rw [← hl]
    exact Library.methodsOf_eq_assignMethods (hl ▸ hnodup) d

/-- A member of a namespace that bears the short name of private docs. -/
def helperMethod : FunctionDoc :=
  { QualifiedName.parse "Helper.make" with number := 3, isStatic := true }

/-- Three private docs that share a short name, two of them the whole name, and the members of the
namespace with that name. -/
def helperDocs : List FunctionDoc :=
  [{ QualifiedName.parse "Helper#run" with number := 0 }, Session.privateDoc "Helper" 1,
   Session.privateDoc "lib.Helper" 2, helperMethod, Session.privateDoc "Helper" 4]

theorem elevatePrivate_assigns_helpers :
    (helperDocs.map (·.number)).Nodup ∧ (∀ d ∈ helperDocs, d.name ≠ privateGroup) ∧
      let elevated := elevatePrivate (NamespaceInfo.aggregate helperDocs []) helperDocs
      (elevated.map (·.doc.number)).Perm [1, 2, 4] ∧
        (assignMethods (fun _ => helperDocs) elevated 4).map (·.number) = [0, 3] ∧
        assignMethods (fun _ => helperDocs) elevated 3 = helperDocs := by
  have hdistinct : (helperDocs.map (·.number)).Nodup := by decide
  have hnames : ∀ d ∈ helperDocs, d.name ≠ privateGroup := by decide
  obtain ⟨-, hperm, hmethods, -⟩ := elevatePrivate_assigns hdistinct hnames
  refine ⟨hdistinct, hnames, ?_, ?_, ?_⟩
  · have hnumbers := hperm.map (·.number)
    rwa [List.map_map, show (helperDocs.filter (·.isPrivate)).map (·.number) = [1, 2, 4] by decide]
      at hnumbers
  · have hgiven := hmethods (fun _ => helperDocs) (Session.privateDoc "Helper" 4)
      (by simp [helperDocs])
    refine (congrArg (List.map (·.number)) hgiven).trans ?_
    decide
  · exact hmethods (fun _ => helperDocs) helperMethod (by simp [helperDocs])

end DocModel
