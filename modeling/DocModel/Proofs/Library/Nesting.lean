import DocModel.Library.Export
import DocModel.Proofs.Library.Aggregation
import Mathlib.Data.Finset.Card
import Mathlib.Logic.Relation

/-!
# Docs inside docs

In the value of a library a private doc holds its methods as whole docs, and a method that is
private holds its own. The value exists exactly if this comes to an end, that is if no private doc
is, directly or through others, among its own methods (`Session.toValue_assemble`).

The value is made up to a given depth, one more than there are private docs. Only private docs hold
others. If a way down through methods never comes back to a doc, it passes each private doc at most
once, so that depth is enough (`Library.exists_value`) and a larger one makes no difference
(`Library.docValueUpTo_succ`). On a way that does come back no depth is enough
(`Library.docValueUpTo_of_cycle`).

A doc is known by its number. Docs that are read from a source are numbered in their order
(`Associator.number_functionDocs`), so there is one doc for each number.
-/

/-- **A list is gone through with success if that is so at each of its members.** -/
theorem List.mapM_eq_some_iff {α β : Type} {f : α → Option β} {l : List α} {bs : List β} :
    l.mapM f = some bs ↔ l.map f = bs.map some := by
  induction l generalizing bs with
  | nil =>
    rw [List.mapM_nil, List.map_nil, eq_comm (a := []), List.map_eq_nil_iff]
    exact ⟨fun h => (Option.some.inj h).symm, fun h => congrArg some h.symm⟩
  | cons a l ih =>
    rw [List.mapM_cons, List.map_cons]
    constructor
    · intro h
      obtain ⟨b, hb, h⟩ := Option.bind_eq_some_iff.mp h
      obtain ⟨rest, hrest, h⟩ := Option.bind_eq_some_iff.mp h
      cases h
      rw [hb, ih.mp hrest, List.map_cons]
    · intro h
      cases bs with
      | nil => cases h
      | cons b bs =>
        rw [List.map_cons, List.cons.injEq] at h
        rw [h.1, ih.mpr h.2]
        rfl

theorem List.mapM_eq_none_of_mem {α β : Type} {f : α → Option β} {l : List α} {a : α} (ha : a ∈ l)
    (h : f a = none) : l.mapM f = none := by
  refine Option.eq_none_iff_forall_ne_some.mpr fun bs hbs => ?_
  have hmem : none ∈ bs.map some := by
    rw [← List.mapM_eq_some_iff.mp hbs, ← h]
    exact List.mem_map_of_mem ha
  simp at hmem

namespace DocModel

namespace Library

variable {l : Library} {d e : FunctionDoc}

/-- Whether a doc is among the methods of another. -/
def Nests (l : Library) (d e : FunctionDoc) : Prop := e ∈ l.methodsOf d

theorem docValueUpTo_eq_some_iff {depth : Nat} {v : Value} :
    l.docValueUpTo (depth + 1) d = some v ↔
      ∃ methods, (l.methodsOf d).map (l.docValueUpTo depth) = methods.map some ∧
        d.toValue (sectionOf l.namespaces d) methods = v := by
  rw [docValueUpTo]
  simp only [← List.mapM_eq_some_iff]
  constructor
  · intro h
    obtain ⟨methods, hmethods, h⟩ := Option.bind_eq_some_iff.mp h
    exact ⟨methods, hmethods, Option.some.inj h⟩
  · rintro ⟨methods, hmethods, rfl⟩
    rw [hmethods]
    rfl

/-! ## Ways down -/

/-- A doc on a way that comes back has no value, however deep one goes. -/
theorem docValueUpTo_of_cycle (hcycle : Relation.TransGen l.Nests d d) (depth : Nat) :
    l.docValueUpTo depth d = none := by
  induction depth generalizing d with
  | zero => rfl
  | succ depth ih =>
    obtain ⟨m, hm, hback⟩ := Relation.TransGen.head'_iff.mp hcycle
    -- The next doc on the way lies on the same way.
    have hnone : l.docValueUpTo depth m = none := ih (Relation.TransGen.tail' hback hm)
    rw [docValueUpTo, List.mapM_eq_none_of_mem hm hnone]
    rfl

/-- A doc that is deep enough down is so from further up as well. -/
theorem docValueUpTo_succ {depth : Nat} {v : Value} (h : l.docValueUpTo depth d = some v) :
    l.docValueUpTo (depth + 1) d = some v := by
  induction depth generalizing d v with
  | zero => cases h
  | succ depth ih =>
    obtain ⟨methods, hmethods, hv⟩ := docValueUpTo_eq_some_iff.mp h
    refine docValueUpTo_eq_some_iff.mpr ⟨methods, ?_, hv⟩
    rw [← hmethods]
    refine List.map_congr_left fun m hm => ?_
    obtain ⟨u, -, hu⟩ := List.mem_map.mp (hmethods ▸ List.mem_map_of_mem hm)
    rw [← hu]
    exact ih hu.symm

theorem mem_of_find {p : ElevatedDoc}
    (h : l.privateDocs.find? (·.doc.number = d.number) = some p) :
    p ∈ l.privateDocs ∧ p.doc.number = d.number := by
  have hfound : decide (p.doc.number = d.number) = true := by simpa using List.find?_some h
  exact ⟨List.mem_of_find?_eq_some h, of_decide_eq_true hfound⟩

/-- Only private docs have methods. -/
theorem exists_private_of_nests (h : l.Nests d e) :
    ∃ p ∈ l.privateDocs, p.doc.number = d.number ∧ e ∈ p.methods := by
  unfold Nests methodsOf at h
  split at h
  · next p hp =>
    obtain ⟨hmem, hnumber⟩ := mem_of_find hp
    exact ⟨p, hmem, hnumber, h⟩
  · cases h

/-- What the methods of a doc are depends on its number alone. -/
theorem nests_congr {d' : FunctionDoc} (h : d.number = d'.number) : l.Nests d e ↔ l.Nests d' e := by
  rw [Nests, Nests, methodsOf, methodsOf, h]

/-- Private docs above `d`, all different, leave only the other ones for a way down. -/
theorem exists_docValueUpTo_of_above (hacyclic : ∀ d, ¬ Relation.TransGen l.Nests d d)
    {depth : Nat} (above : Finset Nat)
    (habove : ∀ n ∈ above, ∃ p ∈ l.privateDocs, p.doc.number = n ∧
      Relation.TransGen l.Nests p.doc d)
    (hcard : l.privateDocs.length < above.card + depth) :
    ∃ v, l.docValueUpTo depth d = some v := by
  induction depth generalizing d above with
  | zero =>
    -- There are not so many private docs.
    have hsubset : above ⊆ (l.privateDocs.map (·.doc.number)).toFinset := by
      intro n hn
      obtain ⟨p, hp, hpn, -⟩ := habove n hn
      exact List.mem_toFinset.mpr (hpn ▸ List.mem_map_of_mem hp)
    have hle := (Finset.card_le_card hsubset).trans (List.toFinset_card_le _)
    rw [List.length_map] at hle
    omega
  | succ depth ih =>
    have hd : d.number ∉ above := by
      intro hmem
      obtain ⟨p, -, hpn, hpath⟩ := habove _ hmem
      obtain ⟨m, hm, hback⟩ := Relation.TransGen.head'_iff.mp hpath
      exact hacyclic d (Relation.TransGen.head' ((nests_congr hpn).mp hm) hback)
    have hmethods : ∀ m ∈ l.methodsOf d, ∃ v, l.docValueUpTo depth m = some v := by
      intro m hm
      obtain ⟨p, hp, hpn, -⟩ := exists_private_of_nests hm
      refine ih (insert d.number above) (fun n hn => ?_) ?_
      · obtain rfl | hn := Finset.mem_insert.mp hn
        · exact ⟨p, hp, hpn, .single ((nests_congr hpn).mpr hm)⟩
        · obtain ⟨q, hq, hqn, hpath⟩ := habove n hn
          exact ⟨q, hq, hqn, hpath.tail hm⟩
      · rw [Finset.card_insert_of_notMem hd]
        omega
    refine ⟨_, docValueUpTo_eq_some_iff.mpr
      ⟨(l.methodsOf d).map fun m => (l.docValueUpTo depth m).getD .null, ?_, rfl⟩⟩
    rw [List.map_map]
    refine List.map_congr_left fun m hm => ?_
    obtain ⟨v, hv⟩ := hmethods m hm
    rw [Function.comp_apply, hv, Option.getD_some]

/-- **Without ways that come back, every doc has a value.** -/
theorem exists_value (hacyclic : ∀ d, ¬ Relation.TransGen l.Nests d d) :
    ∃ value : FunctionDoc → Value, ∀ d, l.docValue? d = some (value d) := by
  refine ⟨fun d => (l.docValue? d).getD .null, fun d => ?_⟩
  obtain ⟨v, hv⟩ : ∃ v, l.docValue? d = some v :=
    exists_docValueUpTo_of_above hacyclic ∅ (fun _ hn => absurd hn (Finset.notMem_empty _))
      (by rw [Finset.card_empty]; omega)
  show l.docValue? d = some ((l.docValue? d).getD .null)
  rw [hv, Option.getD_some]

/-- **The value of a doc holds those of its methods.** -/
theorem docValue_eq {value : FunctionDoc → Value} (hvalue : ∀ d, l.docValue? d = some (value d))
    (d : FunctionDoc) :
    value d = d.toValue (sectionOf l.namespaces d) ((l.methodsOf d).map value) := by
  -- One step deeper than is needed, the methods are as deep as is needed.
  obtain ⟨methods, hmethods, hd⟩ := docValueUpTo_eq_some_iff.mp (docValueUpTo_succ (hvalue d))
  have hmap : (l.methodsOf d).map value = methods := by
    refine List.map_injective_iff.mpr (Option.some_injective _) ?_
    rw [← hmethods, List.map_map]
    exact List.map_congr_left fun m _ => (hvalue m).symm
  rw [hmap, hd]

end Library

/-! ## The value of a library -/

/-- A namespace as a value, from the values of docs. -/
def NamespaceInfo.valueWith (value : FunctionDoc → Value) (info : NamespaceInfo) : Value :=
  info.toValue ((info.constructor?.map value).getD .null) (.list (info.members.map value))
    (.list (info.privateMembers.map value)) (.list (info.allMembers.map value))

namespace Library

variable {l : Library}

/-- **A library as a value, from the values of docs.** -/
def valueWith (value : FunctionDoc → Value) (l : Library) (includeCode : Bool) : Value :=
  l.toValue includeCode (l.namespaces.map (·.valueWith value)) (.list (l.docs.map value))
    (.list (l.privateDocs.map fun p => value p.doc))

section Value

variable {value : FunctionDoc → Value} (hvalue : ∀ d, l.docValue? d = some (value d))
include hvalue

theorem docValues_eq (docs : List FunctionDoc) :
    l.docValues? docs = some (.list (docs.map value)) := by
  have hdocs : docs.mapM l.docValue? = some (docs.map value) := by
    rw [List.mapM_eq_some_iff, List.map_map]
    exact List.map_congr_left fun d _ => hvalue d
  rw [docValues?, hdocs]
  rfl

theorem namespaceValue_eq (info : NamespaceInfo) :
    l.namespaceValue? info = some (info.valueWith value) := by
  rw [namespaceValue?, docValues_eq hvalue, docValues_eq hvalue, docValues_eq hvalue,
    NamespaceInfo.valueWith]
  cases info.constructor? with
  | none => rfl
  | some d =>
    dsimp only
    rw [hvalue d]
    rfl

theorem toValue_eq (includeCode : Bool) :
    l.toValue? includeCode = some (l.valueWith value includeCode) := by
  have hnamespaces : l.namespaces.mapM l.namespaceValue?
      = some (l.namespaces.map (·.valueWith value)) := by
    rw [List.mapM_eq_some_iff, List.map_map]
    exact List.map_congr_left fun info _ => namespaceValue_eq hvalue info
  rw [toValue?, hnamespaces, docValues_eq hvalue, docValues_eq hvalue, valueWith, List.map_map]
  rfl

end Value

/-- A library with a private doc on a way that comes back has no value. -/
theorem toValue_of_cycle {p : ElevatedDoc} (hp : p ∈ l.privateDocs)
    (hcycle : Relation.TransGen l.Nests p.doc p.doc) (includeCode : Bool) :
    l.toValue? includeCode = none := by
  have hdoc : l.docValue? p.doc = none := docValueUpTo_of_cycle hcycle _
  have hnone : l.docValues? (l.privateDocs.map (·.doc)) = none := by
    rw [docValues?, List.mapM_eq_none_of_mem (List.mem_map_of_mem hp) hdoc]
    rfl
  rw [toValue?, hnone]
  cases l.namespaces.mapM l.namespaceValue? with
  | none => rfl
  | some namespaces => cases l.docValues? l.docs <;> rfl

end Library

/-! ## Private docs and their methods -/

/-- **The private docs that are elevated** when the given namespaces of some docs are requested. -/
def elevatedDocs (docs : List FunctionDoc) (requested : List Text) : List FunctionDoc :=
  (elevatePrivate (NamespaceInfo.aggregate docs requested) docs).map (·.doc)

/-- **An edge** from an elevated doc to a doc of the namespace that bears its short name. -/
def LeadsTo (docs : List FunctionDoc) (requested : List Text) (d e : FunctionDoc) : Prop :=
  d ∈ elevatedDocs docs requested ∧ e ∈ docs ∧ e.owner? = some d.shortName

variable {docs : List FunctionDoc} {requested : List Text} {d e : FunctionDoc}

theorem mem_of_mem_distinctDocs (h : d ∈ distinctDocs docs) : d ∈ docs := by
  induction docs with
  | nil => exact h
  | cons first rest ih =>
    obtain rfl | h := List.mem_cons.mp h
    · exact List.mem_cons_self
    · exact List.mem_cons_of_mem first (ih (List.mem_filter.mp h).1)

theorem exists_mem_distinctDocs (h : d ∈ docs) : ∃ e ∈ distinctDocs docs, e.number = d.number := by
  induction docs with
  | nil => cases h
  | cons first rest ih =>
    obtain rfl | h := List.mem_cons.mp h
    · exact ⟨d, List.mem_cons_self, rfl⟩
    · obtain ⟨e, he, hnumber⟩ := ih h
      by_cases hfirst : e.number = first.number
      · exact ⟨first, List.mem_cons_self, hfirst.symm.trans hnumber⟩
      · exact ⟨e, List.mem_cons_of_mem first (List.mem_filter.mpr ⟨he, decide_eq_true hfirst⟩),
          hnumber⟩

theorem elevatedDocs_eq : elevatedDocs docs requested
    = distinctDocs ((NamespaceInfo.aggregate docs requested).flatMap (·.privateMembers)) := by
  rw [elevatedDocs, elevatePrivate, List.map_map]
  exact List.map_id _

theorem NamespaceInfo.mem_privateMembers_build {groups : Groups} {key : Text} :
    d ∈ (build groups key).privateMembers ↔ d ∈ (build groups key).allMembers ∧ d.isPrivate := by
  show d ∈ List.mergeSort _ _ ↔ _
  rw [List.mem_mergeSort, List.mem_filter]
  rfl

theorem mem_of_mem_elevatedDocs (h : d ∈ elevatedDocs docs requested) : d ∈ docs := by
  rw [elevatedDocs_eq] at h
  obtain ⟨info, hinfo, hd⟩ := List.mem_flatMap.mp (mem_of_mem_distinctDocs h)
  obtain ⟨name, -, rfl⟩ := List.mem_map.mp hinfo
  exact NamespaceInfo.mem_of_mem_allMembers (NamespaceInfo.mem_privateMembers_build.mp hd).1

/-- If no namespaces are requested, the private docs are elevated. -/
theorem mem_elevatedDocs_nil (hidentity : ∀ d ∈ docs, ∀ e ∈ docs, d.number = e.number → d = e)
    (hd : d ∈ docs) (hprivate : d.isPrivate) (hname : d.name ≠ privateGroup) :
    d ∈ elevatedDocs docs [] := by
  have hkey : d.groupKey = privateGroup := if_pos hprivate
  have hinfo : NamespaceInfo.build (Groups.ofDocs docs) privateGroup
      ∈ NamespaceInfo.aggregate docs [] := NamespaceInfo.mem_aggregate.mpr ⟨d, hd, by rw [hkey]⟩
  have hlisted := NamespaceInfo.mem_privateMembers_build.mpr
    ⟨NamespaceInfo.mem_allMembers_build.mpr (.inr ⟨hd, hkey, hname⟩), hprivate⟩
  obtain ⟨e, he, hnumber⟩ := exists_mem_distinctDocs (List.mem_flatMap.mpr ⟨_, hinfo, hlisted⟩)
  rw [← elevatedDocs_eq] at he
  rwa [← hidentity e (mem_of_mem_elevatedDocs he) d hd hnumber]

theorem mem_of_transGen_leadsTo (h : Relation.TransGen (LeadsTo docs requested) d e) :
    e ∈ docs := by
  obtain ⟨_, _, hlast⟩ := Relation.TransGen.tail'_iff.mp h
  exact hlast.2.1

namespace Library

variable {l : Library}
  (hprivate : l.privateDocs = elevatePrivate (NamespaceInfo.aggregate docs requested) docs)
include hprivate

/-- A private doc of the library is elevated, and its methods are the ends of its edges. -/
theorem methods_of_mem {p : ElevatedDoc} (hp : p ∈ l.privateDocs) :
    p.doc ∈ elevatedDocs docs requested ∧
      p.methods = docs.filter (·.owner? = some p.doc.shortName) := by
  rw [hprivate] at hp
  refine ⟨List.mem_map_of_mem hp, ?_⟩
  obtain ⟨d, -, rfl⟩ := List.mem_map.mp hp
  rfl

variable (hidentity : ∀ d ∈ docs, ∀ e ∈ docs, d.number = e.number → d = e)
include hidentity

theorem methodsOf_of_mem (hd : d ∈ elevatedDocs docs requested) :
    l.methodsOf d = docs.filter (·.owner? = some d.shortName) := by
  have hfound : ∃ p, l.privateDocs.find? (·.doc.number = d.number) = some p := by
    obtain ⟨p, hp, hdoc⟩ := List.mem_map.mp hd
    refine Option.isSome_iff_exists.mp (List.find?_isSome.mpr ⟨p, hprivate ▸ hp, ?_⟩)
    rw [hdoc, decide_eq_true_eq]
  obtain ⟨p, hp⟩ := hfound
  obtain ⟨hmem, hnumber⟩ := mem_of_find hp
  obtain ⟨helevated, hmethods⟩ := methods_of_mem hprivate hmem
  have hdoc : p.doc = d := hidentity _ (mem_of_mem_elevatedDocs helevated) _
    (mem_of_mem_elevatedDocs hd) hnumber
  rw [methodsOf, hp, ← hdoc]
  exact hmethods

theorem methodsOf_of_notMem (hd : d ∈ docs) (helevated : d ∉ elevatedDocs docs requested) :
    l.methodsOf d = [] := by
  refine List.eq_nil_iff_forall_not_mem.mpr fun e he => helevated ?_
  obtain ⟨p, hp, hnumber, -⟩ := exists_private_of_nests he
  obtain ⟨helevated, -⟩ := methods_of_mem hprivate hp
  rwa [← hidentity _ (mem_of_mem_elevatedDocs helevated) d hd hnumber]

theorem nests_iff_leadsTo (hd : d ∈ docs) : l.Nests d e ↔ LeadsTo docs requested d e := by
  unfold Nests LeadsTo
  by_cases helevated : d ∈ elevatedDocs docs requested
  · rw [methodsOf_of_mem hprivate hidentity helevated, List.mem_filter, decide_eq_true_eq,
      and_iff_right helevated]
  · rw [methodsOf_of_notMem hprivate hidentity hd helevated]
    simp [helevated]

/-- Ways down from a doc of the list are ways along edges. -/
theorem transGen_nests_iff (hd : d ∈ docs) :
    Relation.TransGen l.Nests d e ↔ Relation.TransGen (LeadsTo docs requested) d e := by
  constructor
  · intro h
    induction h with
    | single hstep => exact .single ((nests_iff_leadsTo hprivate hidentity hd).mp hstep)
    | tail _ hstep ih =>
      exact ih.tail ((nests_iff_leadsTo hprivate hidentity (mem_of_transGen_leadsTo ih)).mp hstep)
  · refine Relation.TransGen.mono (fun a b hstep => ?_) d e
    exact (nests_iff_leadsTo hprivate hidentity (mem_of_mem_elevatedDocs hstep.1)).mpr hstep

/-- **Where ways come back**: at an elevated doc if anywhere. -/
theorem exists_cycle_iff : (∃ d, Relation.TransGen l.Nests d d) ↔
    ∃ d ∈ elevatedDocs docs requested, Relation.TransGen (LeadsTo docs requested) d d := by
  constructor
  · rintro ⟨d, hcycle⟩
    -- The last step of the way ends at `d`, which is then one of the docs.
    have hd : d ∈ docs := by
      obtain ⟨m, -, hlast⟩ := Relation.TransGen.tail'_iff.mp hcycle
      obtain ⟨p, hp, -, hmem⟩ := exists_private_of_nests hlast
      rw [(methods_of_mem hprivate hp).2] at hmem
      exact (List.mem_filter.mp hmem).1
    have hedges := (transGen_nests_iff hprivate hidentity hd).mp hcycle
    obtain ⟨m, hfirst, -⟩ := Relation.TransGen.head'_iff.mp hedges
    exact ⟨d, hfirst.1, hedges⟩
  · rintro ⟨d, hd, hedges⟩
    exact ⟨d, (transGen_nests_iff hprivate hidentity (mem_of_mem_elevatedDocs hd)).mpr hedges⟩

/-- **A library has no value exactly if a way leads from an elevated doc back to it.** -/
theorem toValue_eq_none_iff (includeCode : Bool) : l.toValue? includeCode = none ↔
    ∃ d ∈ elevatedDocs docs requested, Relation.TransGen (LeadsTo docs requested) d d := by
  constructor
  · intro hnone
    rw [← exists_cycle_iff hprivate hidentity]
    by_contra hacyclic
    obtain ⟨value, hvalue⟩ := exists_value (not_exists.mp hacyclic)
    rw [toValue_eq hvalue] at hnone
    cases hnone
  · rintro ⟨d, hd, hedges⟩
    obtain ⟨p, hp, rfl⟩ := List.mem_map.mp hd
    exact toValue_of_cycle (hprivate ▸ hp)
      ((transGen_nests_iff hprivate hidentity (mem_of_mem_elevatedDocs hd)).mpr hedges) _

end Library

namespace Session

/-- A private doc with a name and a number. -/
def privateDoc (path : Text) (number : Nat) : FunctionDoc :=
  { QualifiedName.parse path with number, isPrivate := true }

/-- Two private docs, each a method of the other. -/
def mutualDocs : List FunctionDoc := [privateDoc "A.B" 0, privateDoc "B.A" 1]

/-- Three private docs, each a method of the one before. -/
def chainedDocs : List FunctionDoc := [privateDoc "A.B" 0, privateDoc "B.C" 1, privateDoc "C.D" 2]

/-- A session for empty sources. -/
def idle : Session := ofTree (.node "program" true 0 0 none [])

end Session

/-! ## Libraries that are read -/

namespace Associator

variable {a : Associator}

theorem number_of_functionDoc {number : Nat} {c : BlockComment} {doclet : Doclet} {n : NodeId}
    (h : a.functionDoc number c doclet n = .ok (some d)) : d.number = number := by
  unfold functionDoc at h
  split at h
  · cases h
  · simp only [Except.bind_eq_ok_iff] at h
    obtain ⟨examples, -, benchmarks, -, heq⟩ := h
    cases heq
    rfl

/-- Docs are numbered in their order. -/
theorem number_functionDocs {next : Nat} {read : List (BlockComment × Doclet)}
    (h : a.functionDocs next read = .ok docs) :
    docs.map (·.number) = List.range' next docs.length := by
  induction read generalizing next docs with
  | nil =>
    cases h
    rfl
  | cons first rest ih =>
    obtain ⟨-, hrest⟩ | ⟨n, d, more, -, hd, hmore, rfl⟩ := functionDocs_cons h
    · exact ih hrest
    · rw [List.map_cons, ih hmore, number_of_functionDoc hd, List.length_cons, List.range'_succ]

end Associator

theorem FunctionDoc.number_restrictTo (tags : List Text) :
    (restrictTo tags docs).map (·.number) = docs.map (·.number) := by
  unfold restrictTo
  split
  · rfl
  · rw [List.map_map]
    refine List.map_congr_left fun d _ => ?_
    rw [Function.comp_apply]
    split <;> rfl

namespace Session

/-- **Which sources have a library without a value**, if no pattern restricts what is listed: the
docs that are read are told apart by their numbers. -/
theorem toValue_eq_none_iff_of_parse {s : Session} {text : Text} {library : Library}
    {errors : List CommentError} (hgrep : s.grep = none)
    (hparse : s.parse text = (.ok library, errors)) (includeCode : Bool) :
    library.toValue? includeCode = none ↔
      ∃ d ∈ elevatedDocs library.docs s.settings.namespaces,
        Relation.TransGen (LeadsTo library.docs s.settings.namespaces) d d := by
  obtain ⟨index, docs, -, hdocs, -, rfl⟩ := parse_eq_ok hparse
  have hlisted : (FunctionDoc.restrictTo (s.settingsFor docs).tags docs).map (·.number)
      = List.range' 0 docs.length :=
    (FunctionDoc.number_restrictTo _).trans (Associator.number_functionDocs hdocs)
  simp only [assemble, hgrep]
  refine Library.toValue_eq_none_iff rfl (List.inj_on_of_nodup_map ?_) includeCode
  rw [hlisted]
  exact List.nodup_range'

end Session

end DocModel
