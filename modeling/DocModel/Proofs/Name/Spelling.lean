import DocModel.Name
import DocModel.Proofs.Basic
import DocModel.Syntax.Naming

/-!
# Two spellings of one name

A `#` in a name can be written `.prototype.`, and a name may mix both spellings. Reading a name
drops the segments `prototype` before the last separator, so it might be thought to tell the
two apart only by the separator before the short name. It does not tell them apart at all: what
stands there is a `#` in one spelling and a segment `prototype` in the other, and both make the
function an instance member. So two names are read alike exactly when they are the same
once every `#` is spelled out (`QualifiedName.parseUnder_spelling`).

Both the segments of a name and what is read from it are followed along its separators, from the
last one to the first: `exists_last_separator` takes a name apart there, and `splitWhere_append`
says that its segments are those of the path and the short name.
-/

namespace DocModel.QualifiedName

/-! ## Spelling out -/

theorem hash_notMem {t : Text} (h : ∀ c ∈ t, isSeparator c = false) : '#' ∉ t := fun hmem =>
  absurd (h '#' hmem) (by decide)

theorem spellOut_append (t u : Text) : spellOut (t ++ u) = spellOut t ++ spellOut u :=
  List.flatMap_append

theorem spellOut_of_notMem {t : Text} (h : '#' ∉ t) : spellOut t = t := by
  induction t with
  | nil => rfl
  | cons c t ih =>
    rw [List.mem_cons, not_or] at h
    obtain ⟨hc, ht⟩ := h
    show (if c == '#' then _ else _) ++ spellOut t = c :: t
    rw [if_neg (by simpa using Ne.symm hc), ih ht]
    rfl

theorem spellOut_dot (path last : Text) :
    spellOut (path ++ '.' :: last) = spellOut path ++ '.' :: spellOut last :=
  spellOut_append path ('.' :: last)

theorem spellOut_hash (path last : Text) :
    spellOut (path ++ '#' :: last)
      = (spellOut path ++ '.' :: prototypeSegment) ++ '.' :: spellOut last := by
  rw [spellOut_append, List.append_assoc]
  rfl

/-- A spelled out name has nothing left to spell out. -/
theorem spellOut_spellOut (t : Text) : spellOut (spellOut t) = spellOut t := by
  refine spellOut_of_notMem fun hmem => ?_
  obtain ⟨c, -, hc⟩ := List.mem_flatMap.mp hmem
  by_cases hhash : c = '#'
  · subst hhash
    exact absurd hc (by decide)
  · rw [if_neg (by simpa using hhash), List.mem_singleton] at hc
    exact hhash hc.symm

theorem dot_isSeparator : isSeparator '.' = true := rfl

theorem eq_dot_or_hash {c : Char} (hc : isSeparator c = true) : c = '.' ∨ c = '#' := by
  simpa [isSeparator] using hc

/-! ## The path before the short name -/

/-- The segments of a path without those that stand for the instances of an owner. -/
def ownerSegments (path : Text) : List Text :=
  (Text.splitWhere isSeparator path).filter (· ≠ prototypeSegment)

/-- Whether a path leads to the instances of its owner. -/
def leadsToInstances (path : Text) : Bool :=
  (Text.splitWhere isSeparator path).getLast? == some prototypeSegment

theorem ownerSegments_append {c : Char} (hc : isSeparator c = true) (path last : Text) :
    ownerSegments (path ++ c :: last) = ownerSegments path ++ ownerSegments last := by
  unfold ownerSegments
  rw [Text.splitWhere_append hc, List.filter_append]

theorem leadsToInstances_append {c : Char} (hc : isSeparator c = true) (path last : Text) :
    leadsToInstances (path ++ c :: last) = leadsToInstances last := by
  unfold leadsToInstances
  rw [Text.splitWhere_append hc, List.getLast?_append,
    List.getLast?_eq_some_getLast (Text.splitWhere_ne_nil isSeparator last)]
  rfl

theorem ownerSegments_prototype : ownerSegments prototypeSegment = [] := by decide

theorem leadsToInstances_prototype : leadsToInstances prototypeSegment = true := by decide

/-- A spelled out path has more segments `prototype`, but no others. -/
theorem ownerSegments_spellOut (path : Text) :
    ownerSegments (spellOut path) = ownerSegments path := by
  induction path using Text.separator_induction (p := isSeparator) with
  | plain t h => rw [spellOut_of_notMem (hash_notMem h)]
  | snoc path c last hc hlast ih =>
    rw [ownerSegments_append hc, ← ih]
    obtain rfl | rfl := eq_dot_or_hash hc
    · rw [spellOut_dot, ownerSegments_append hc, spellOut_of_notMem (hash_notMem hlast)]
    · rw [spellOut_hash, ownerSegments_append dot_isSeparator,
        ownerSegments_append dot_isSeparator, ownerSegments_prototype,
        spellOut_of_notMem (hash_notMem hlast), List.append_nil]

/-- The last segment of a path is not touched when the path is spelled out. -/
theorem leadsToInstances_spellOut (path : Text) :
    leadsToInstances (spellOut path) = leadsToInstances path := by
  obtain hplain | ⟨path, c, last, rfl, hc, hlast⟩ := Text.exists_last_separator isSeparator path
  · rw [spellOut_of_notMem (hash_notMem hplain)]
  · rw [leadsToInstances_append hc]
    obtain rfl | rfl := eq_dot_or_hash hc
    · rw [spellOut_dot, leadsToInstances_append hc, spellOut_of_notMem (hash_notMem hlast)]
    · rw [spellOut_hash, leadsToInstances_append dot_isSeparator,
        spellOut_of_notMem (hash_notMem hlast)]

/-! ## Names taken apart -/

theorem isSuffixOf_hash (path last : Text) (c : Char) :
    ('#' :: last).isSuffixOf (path ++ c :: last) = (c == '#') := by
  rw [Bool.eq_iff_iff, List.isSuffixOf_iff_suffix, beq_iff_eq]
  constructor
  · intro h
    have heq := (List.suffix_of_suffix_length_le h (List.suffix_append path (c :: last))
      (Nat.le_refl _)).eq_of_length rfl
    exact (List.cons.inj heq).1.symm
  · rintro rfl
    exact List.suffix_append path _

/-- **A name is taken apart at its last separator.** -/
theorem parse_append {c : Char} (hc : isSeparator c = true) (path : Text) {last : Text}
    (hlast : ∀ d ∈ last, isSeparator d = false) :
    parse (path ++ c :: last) =
      ofParts (nonempty? (Text.join "." (ownerSegments path)))
        (if c == '#' || leadsToInstances path then '#' else '.') last
        (spellOut (path ++ c :: last)) := by
  unfold parse
  rw [Text.splitWhere_append hc, Text.splitWhere_of_forall hlast]
  simp only [List.getLast?_concat, List.dropLast_concat, Option.getD_some, isSuffixOf_hash]
  rfl

/-- **Spelling a name out does not change what is read from it.** -/
theorem parse_spellOut (t : Text) : parse (spellOut t) = parse t := by
  obtain hplain | ⟨path, c, last, rfl, hc, hlast⟩ := Text.exists_last_separator isSeparator t
  · rw [spellOut_of_notMem (hash_notMem hplain)]
  · have hspelled := spellOut_of_notMem (hash_notMem hlast)
    have hlong := spellOut_spellOut (path ++ c :: last)
    rw [parse_append hc path hlast]
    obtain rfl | rfl := eq_dot_or_hash hc
    · rw [spellOut_dot, hspelled] at hlong ⊢
      rw [parse_append hc (spellOut path) hlast, hlong, ownerSegments_spellOut,
        leadsToInstances_spellOut]
    · -- The `#` before the short name has become the last segment of the path.
      rw [spellOut_hash, hspelled] at hlong ⊢
      rw [parse_append dot_isSeparator (spellOut path ++ '.' :: prototypeSegment) hlast, hlong,
        ownerSegments_append dot_isSeparator, ownerSegments_prototype, List.append_nil,
        ownerSegments_spellOut, leadsToInstances_append dot_isSeparator,
        leadsToInstances_prototype]
      rfl

theorem spellOut_replaceFirst (t : Text) :
    spellOut (Text.replaceFirst ".prototype." "#" t) = spellOut t := by
  unfold Text.replaceFirst
  split
  · next before after hcut =>
    rw [Text.cut?_eq_some hcut]
    simp only [spellOut_append]
    rfl
  · rfl

/-- **A name under the tags of a doclet**, if there is one. -/
def parseUnder (name : Text) (doclet? : Option Doclet) : QualifiedName :=
  match doclet? with
  | some doclet => (parse name).underTags doclet
  | none => parse name

theorem longName_underTags (q : QualifiedName) (doclet : Doclet) :
    (q.underTags doclet).longName = q.longName := by
  unfold underTags
  split
  · rfl
  split
  · rfl
  · rfl

theorem longName_parseUnder (name : Text) (doclet? : Option Doclet) :
    (parseUnder name doclet?).longName = spellOut name := by
  cases doclet? with
  | none => rfl
  | some doclet => exact longName_underTags (parse name) doclet

theorem parseUnder_congr {m n : Text} (h : spellOut m = spellOut n) (doclet? : Option Doclet) :
    parseUnder m doclet? = parseUnder n doclet? := by
  have hparse : parse m = parse n := by rw [← parse_spellOut m, h, parse_spellOut]
  unfold parseUnder
  rw [hparse]

/-- **Names are read alike exactly when they differ in spelling only.** So the spelled out name is
read like the name itself, and the name that is found for a function is read like the one
that stands in the code, although its first `.prototype.` is rewritten. -/
theorem parseUnder_spelling (m n : Text) (doclet? : Option Doclet) (g : Graph)
    (parents : ParentTable) (node : Option NodeId) (visited : List NodeId) :
    (parseUnder m doclet? = parseUnder n doclet? ↔ spellOut m = spellOut n) ∧
      parseUnder (parseUnder n doclet?).longName doclet? = parseUnder n doclet? ∧
      (Naming.resolveFrom g parents node visited).1.map (parseUnder · doclet?)
        = (Naming.solid? (Naming.climb g parents (g.nodes.size + 1) node visited).1).map
            (parseUnder · doclet?) := by
  refine ⟨⟨fun h => ?_, fun h => parseUnder_congr h doclet?⟩, ?_, ?_⟩
  · rw [← longName_parseUnder m doclet?, h, longName_parseUnder]
  · refine parseUnder_congr ?_ doclet?
    rw [longName_parseUnder, spellOut_spellOut]
  · show ((Naming.solid? _).map (Text.replaceFirst ".prototype." "#")).map _ = _
    rw [Option.map_map]
    congr 1
    funext name
    exact parseUnder_congr (spellOut_replaceFirst name) doclet?

end DocModel.QualifiedName
