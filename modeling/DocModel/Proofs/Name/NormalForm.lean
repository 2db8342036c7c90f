import DocModel.Proofs.Name.Spelling

/-!
# The normal form of a name

Reading a name and putting its parts together again leads to the *normal form* of the name: a short
name without separators, by itself or behind a path that is not empty, has no `#` and no segment
`prototype` (`QualifiedName.IsNormal`). Such a name is read as it stands
(`QualifiedName.parse_qualify`), so reading a second time changes nothing but the spelled out name,
which is that of the name given.

What can go wrong on the way is the path. Its segments are taken apart, thinned out and joined, and
the text that results has those segments and no others (`Text.splitWhere_join`). If no segment is
left, or a single empty one, the text is empty, and then there is no path.
-/

namespace DocModel.QualifiedName

/-! ## Paths -/

/-- **A path as it stands in a normal name.** -/
structure IsNormalPath (path : Text) : Prop where
  ne_nil : path ≠ []
  hash_notMem : '#' ∉ path
  prototype_notMem : prototypeSegment ∉ Text.splitWhere isSeparator path

/-- A path without `#` is made of its segments, with dots between them. -/
theorem join_splitWhere {path : Text} (h : '#' ∉ path) :
    Text.join "." (Text.splitWhere isSeparator path) = path := by
  induction path using Text.separator_induction (p := isSeparator) with
  | plain t ht =>
    rw [Text.splitWhere_of_forall ht]
    rfl
  | snoc path c last hc hlast ih =>
    rw [List.mem_append, List.mem_cons, not_or, not_or] at h
    obtain ⟨hpath, hne, -⟩ := h
    obtain rfl : c = '.' := (eq_dot_or_hash hc).resolve_right (Ne.symm hne)
    rw [Text.splitWhere_append hc, Text.splitWhere_of_forall hlast,
      Text.join_append (Text.splitWhere_ne_nil _ _) (List.cons_ne_nil _ _), ih hpath]
    exact List.append_assoc _ _ _

theorem ownerSegments_of_notMem {path : Text}
    (h : prototypeSegment ∉ Text.splitWhere isSeparator path) :
    ownerSegments path = Text.splitWhere isSeparator path :=
  List.filter_eq_self.mpr fun _ hmem => decide_eq_true fun heq => h (heq ▸ hmem)

/-- A normal path is the path of its segments. -/
theorem IsNormalPath.nonempty?_join {path : Text} (h : IsNormalPath path) :
    nonempty? (Text.join "." (ownerSegments path)) = some path := by
  rw [ownerSegments_of_notMem h.prototype_notMem, join_splitWhere h.hash_notMem]
  exact if_neg (mt List.isEmpty_iff.mp h.ne_nil)

theorem IsNormalPath.leadsToInstances {path : Text} (h : IsNormalPath path) :
    leadsToInstances path = false :=
  beq_eq_false_iff_ne.mpr fun hlast => h.prototype_notMem (List.mem_of_getLast? hlast)

/-- **The path that is read is a normal one**, where one is read. -/
theorem isNormalPath_of_nonempty? {path owner : Text}
    (h : nonempty? (Text.join "." (ownerSegments path)) = some owner) : IsNormalPath owner := by
  unfold nonempty? at h
  split at h
  · cases h
  · next hempty =>
    obtain rfl := Option.some.inj h
    have hplain : ∀ segment ∈ ownerSegments path, ∀ c ∈ segment, isSeparator c = false :=
      fun _ hsegment => Text.forall_of_mem_splitWhere (List.mem_filter.mp hsegment).1
    have hne : ownerSegments path ≠ [] := fun hnil => hempty (by rw [hnil]; rfl)
    have hsplit : Text.splitWhere isSeparator (Text.join "." (ownerSegments path))
        = ownerSegments path := Text.splitWhere_join dot_isSeparator hne hplain
    refine ⟨mt List.isEmpty_iff.mpr hempty, fun hmem => ?_, fun hmem => ?_⟩
    · obtain hdot | ⟨segment, hsegment, hhash⟩ := Text.mem_of_mem_join hmem
      · exact absurd hdot (by decide)
      · exact QualifiedName.hash_notMem (hplain segment hsegment) hhash
    · rw [hsplit] at hmem
      exact of_decide_eq_true (List.mem_filter.mp hmem).2 rfl

/-! ## Names -/

/-- A name without separators is a short name. -/
theorem parse_of_forall {last : Text} (hlast : ∀ d ∈ last, isSeparator d = false) (c : Char) :
    parse last = ofParts none c last (spellOut last) := by
  unfold parse
  rw [Text.splitWhere_of_forall hlast]
  rfl

/-- **What is read from a name** is a short name, by itself or behind a normal path. -/
theorem exists_parts (n : Text) :
    ∃ owner? c last, parse n = ofParts owner? c last (spellOut n) ∧
      (∀ path ∈ owner?, IsNormalPath path) ∧ isSeparator c = true ∧
      ∀ d ∈ last, isSeparator d = false := by
  obtain hplain | ⟨path, c, last, rfl, hc, hlast⟩ := Text.exists_last_separator isSeparator n
  · exact ⟨none, '.', n, parse_of_forall hplain '.', nofun, rfl, hplain⟩
  · refine ⟨_, _, last, parse_append hc path hlast, fun _ => isNormalPath_of_nonempty?, ?_, hlast⟩
    split <;> rfl

/-- **A name in its normal form**: a short name, by itself or behind a normal path. -/
inductive IsNormal : Text → Prop
  | plain {last : Text} (hlast : ∀ d ∈ last, isSeparator d = false) : IsNormal last
  | member {path last : Text} {c : Char} (hpath : IsNormalPath path) (hc : isSeparator c = true)
      (hlast : ∀ d ∈ last, isSeparator d = false) : IsNormal (path ++ c :: last)

section Parts

variable {owner? : Option Text} {c : Char} {last : Text}
  (howner : ∀ path ∈ owner?, IsNormalPath path) (hc : isSeparator c = true)
  (hlast : ∀ d ∈ last, isSeparator d = false)

theorem qualify_eq_shortName_iff : qualify owner? c last = last ↔ owner? = none := by
  cases owner? with
  | none => exact iff_of_true rfl rfl
  | some path =>
    refine iff_of_false (fun h => ?_) (Option.some_ne_none path)
    have hlength := congrArg List.length h
    simp only [qualify, List.length_append, List.length_cons] at hlength
    omega

include howner hlast

/-- Neither the path nor the short name holds a `#`. -/
theorem count_hash_qualify : (qualify owner? c last).count '#' ≤ 1 := by
  have hshort : last.count '#' = 0 := List.count_eq_zero.mpr (hash_notMem hlast)
  cases owner? with
  | none =>
    show last.count '#' ≤ 1
    omega
  | some path =>
    have hpath : path.count '#' = 0 := List.count_eq_zero.mpr (howner path rfl).hash_notMem
    show (path ++ c :: last).count '#' ≤ 1
    rw [List.count_append, List.count_cons, hpath, hshort]
    split <;> decide

theorem hash_mem_qualify_iff : '#' ∈ qualify owner? c last ↔
    ∃ path, owner? = some path ∧ qualify owner? c last = path ++ '#' :: last := by
  constructor
  · intro h
    cases owner? with
    | none => exact absurd h (hash_notMem hlast)
    | some path =>
      obtain hpath | hbehind := List.mem_append.mp h
      · exact absurd hpath (howner path rfl).hash_notMem
      · obtain rfl | hshort := List.mem_cons.mp hbehind
        · exact ⟨path, rfl, rfl⟩
        · exact absurd hshort (hash_notMem hlast)
  · rintro ⟨path, -, hname⟩
    rw [hname]
    exact List.mem_append_right path List.mem_cons_self

include hc

theorem isNormal_qualify : IsNormal (qualify owner? c last) := by
  cases owner? with
  | none => exact .plain hlast
  | some path => exact .member (howner path rfl) hc hlast

/-- **A name in its normal form is read as it stands.** -/
theorem parse_qualify :
    parse (qualify owner? c last) = ofParts owner? c last (spellOut (qualify owner? c last)) := by
  cases owner? with
  | none => exact parse_of_forall hlast c
  | some path =>
    have hpath := howner path rfl
    -- The path does not lead to instances, so the separator alone says whether the name does.
    have hkept : (if c == '#' || leadsToInstances path then '#' else '.') = c := by
      rw [hpath.leadsToInstances, Bool.or_false]
      obtain rfl | rfl := eq_dot_or_hash hc <;> rfl
    show parse (path ++ c :: last) = _
    rw [parse_append hc path hlast, hpath.nonempty?_join, hkept]
    rfl

end Parts

theorem IsNormal.name_parse {n : Text} (h : IsNormal n) : (parse n).name = n := by
  cases h with
  | plain hlast => exact congrArg name (parse_of_forall hlast '.')
  | @member path last c hpath hc hlast =>
    have howner : ∀ owner ∈ some path, IsNormalPath owner := by
      rintro _ ⟨⟩
      exact hpath
    exact congrArg name (parse_qualify howner hc hlast)

/-- **The normal form of a name.** Reading the name that was read gives the same parts again, the
spelled out name apart. There is at most one `#` in it, which stands right before the short name;
there is a path exactly if the name is more than the short name, and then it has no segment
`prototype`, and one separator stands behind it. A name stays as it is exactly if it has this
form. -/
theorem parse_normalForm (n : Text) :
    let q := parse n
    parse q.name = { q with longName := spellOut q.name } ∧
      (q.name.count '#' ≤ 1 ∧
        ('#' ∈ q.name ↔ ∃ path, q.owner? = some path ∧ q.name = path ++ '#' :: q.shortName)) ∧
      (q.owner? = none ↔ q.name = q.shortName) ∧
      (q.owner? = none ∨ ∃ path c, q.owner? = some path ∧ (c = '.' ∨ c = '#') ∧
        q.name = path ++ c :: q.shortName ∧
        prototypeSegment ∉ Text.splitWhere isSeparator path) ∧
      (q.name = n ↔ IsNormal n) := by
  intro q
  obtain ⟨owner?, c, last, hparts, howner, hc, hlast⟩ := exists_parts n
  have hq : q = ofParts owner? c last (spellOut n) := hparts
  have hname : q.name = qualify owner? c last := congrArg name hq
  have hfixed : q.name = n ↔ IsNormal n :=
    ⟨fun h => h ▸ hname ▸ isNormal_qualify howner hc hlast, IsNormal.name_parse⟩
  refine ⟨?_, ?_, ?_, ?_, hfixed⟩
  · rw [hname, parse_qualify howner hc hlast, hq]
    rfl
  · rw [hq]
    exact ⟨count_hash_qualify howner hlast, hash_mem_qualify_iff howner hlast⟩
  · rw [hq]
    exact qualify_eq_shortName_iff.symm
  · rw [hq]
    cases owner? with
    | none => exact .inl rfl
    | some path =>
      exact .inr ⟨path, c, rfl, eq_dot_or_hash hc, rfl, (howner path rfl).prototype_notMem⟩

example : (parse "a.prototype.b#c.prototype.d").name = "a.b.c#d" := by decide

/-! ## Names without a path -/

theorem nonempty?_ne (t : Text) : nonempty? t ≠ some [] := by
  unfold nonempty?
  split
  · exact nofun
  · next hempty =>
    intro h
    rw [Option.some.inj h] at hempty
    exact hempty rfl

/-- A name under tags is put together from parts, too, of which the path is not empty. -/
theorem exists_parts_parseUnder (n : Text) (doclet? : Option Doclet) :
    ∃ owner? c last longName,
      parseUnder n doclet? = ofParts owner? c last longName ∧ owner? ≠ some [] := by
  obtain ⟨owner?, c, last, hparts, howner, -, -⟩ := exists_parts n
  have hne : owner? ≠ some [] := fun heq => (howner [] heq).ne_nil rfl
  cases doclet? with
  | none => exact ⟨owner?, c, last, _, hparts, hne⟩
  | some doclet =>
    show ∃ _ _ _ _, (parse n).underTags doclet = _ ∧ _
    unfold underTags
    split
    · exact ⟨none, _, _, _, rfl, nofun⟩
    · split
      · exact ⟨_, _, _, _, rfl, nonempty?_ne _⟩
      · exact ⟨owner?, c, last, _, hparts, hne⟩

/-- **A name without a path is a short name**, also under tags. -/
theorem name_parseUnder (n : Text) (doclet? : Option Doclet)
    (h : (parseUnder n doclet?).owner?.getD [] = []) :
    (parseUnder n doclet?).name = (parseUnder n doclet?).shortName := by
  obtain ⟨owner?, c, last, longName, hparts, hne⟩ := exists_parts_parseUnder n doclet?
  rw [hparts] at h ⊢
  cases owner? with
  | none => rfl
  | some path => exact absurd (congrArg some h) hne

end DocModel.QualifiedName
