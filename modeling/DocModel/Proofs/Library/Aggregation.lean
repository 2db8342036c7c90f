import DocModel.Proofs.Library.Association

/-!
# Which docs are listed

The docs of a library are put into groups one at a time, each behind the others of its group. In the
end every group is the part of the docs that belongs to it, and the groups stand in the order in
which they first appear (`Groups.ofDocs_eq`).

A doc is listed by its namespace in one of two ways: as a member, or as the constructor. The members
are the docs of the group that do not bear its name, whatever else they are; the constructor is a
single doc, the first one of all groups that bears it. A doc that bears the name of its own group is
therefore listed only if no doc before it has the same name (`NamespaceInfo.listed_iff`): when
a source documents a function twice, the second doc belongs to the library and to none of its
namespaces (`Session.second_doc_unlisted`).
-/

namespace DocModel

/-! ## Groups -/

/-- The groups of some docs, in the order in which they first appear. -/
def groupKeys (docs : List FunctionDoc) : List Text := (docs.map (·.groupKey)).eraseDups

/-- **Some docs, group by group.** -/
def inGroupOrder (docs : List FunctionDoc) : List FunctionDoc :=
  (groupKeys docs).flatMap fun key => docs.filter (·.groupKey = key)

theorem mem_groupKeys {docs : List FunctionDoc} {key : Text} :
    key ∈ groupKeys docs ↔ ∃ d ∈ docs, d.groupKey = key := by
  rw [groupKeys, List.mem_eraseDups, List.mem_map]

theorem filter_groupKey_eq_nil {docs : List FunctionDoc} {key : Text} (h : key ∉ groupKeys docs) :
    docs.filter (·.groupKey = key) = [] :=
  List.filter_eq_nil_iff.mpr fun d hd heq =>
    h (mem_groupKeys.mpr ⟨d, hd, of_decide_eq_true heq⟩)

theorem groupKeys_append (docs : List FunctionDoc) (d : FunctionDoc) :
    groupKeys (docs ++ [d])
      = groupKeys docs ++ if d.groupKey ∈ groupKeys docs then [] else [d.groupKey] := by
  unfold groupKeys
  rw [List.map_append, List.eraseDups_append, List.removeAll, List.map_singleton,
    List.filter_singleton, List.elem_eq_mem]
  by_cases h : d.groupKey ∈ docs.map (·.groupKey)
  · rw [if_pos (List.mem_eraseDups.mpr h), decide_eq_true h]
    rfl
  · rw [if_neg (fun hmem => h (List.mem_eraseDups.mp hmem)), decide_eq_false h]
    rfl

theorem nodup_groupKeys (docs : List FunctionDoc) : (groupKeys docs).Nodup := by
  induction docs using List.reverseRecOn with
  | nil => exact List.nodup_nil
  | append_singleton docs d ih =>
    rw [groupKeys_append]
    split
    · rwa [List.append_nil]
    · next h => exact List.nodup_append.mpr ⟨ih, List.nodup_singleton _, by grind⟩

namespace Groups

/-- The groups of given names, with given docs. -/
def table (keys : List Text) (docsOf : Text → List FunctionDoc) : Groups :=
  keys.map fun key => (key, docsOf key)

/-- One more doc changes nothing in the other groups. -/
theorem table_of_notMem {d : FunctionDoc} {keys : List Text} (docsOf : Text → List FunctionDoc)
    (h : d.groupKey ∉ keys) :
    table keys (fun key => docsOf key ++ if d.groupKey = key then [d] else [])
      = table keys docsOf := by
  refine List.map_congr_left fun key hkey => ?_
  have hne : d.groupKey ≠ key := fun heq => h (heq ▸ hkey)
  simp only [if_neg hne, List.append_nil]

/-- A doc of a new group makes that group. -/
theorem add_table_of_notMem {d : FunctionDoc} {keys : List Text} {docsOf : Text → List FunctionDoc}
    (h : d.groupKey ∉ keys) :
    add d (table keys docsOf) = table keys docsOf ++ [(d.groupKey, [d])] := by
  induction keys with
  | nil => rfl
  | cons key keys ih =>
    obtain ⟨hne, hkeys⟩ := not_or.mp (List.mem_cons.not.mp h)
    show (if key = d.groupKey then _ else (key, docsOf key) :: add d (table keys docsOf)) = _
    rw [if_neg (Ne.symm hne), ih hkeys]
    rfl

/-- A doc of a group that is there stands behind the others of the group. -/
theorem add_table_of_mem {d : FunctionDoc} {keys : List Text} {docsOf : Text → List FunctionDoc}
    (hnodup : keys.Nodup) (h : d.groupKey ∈ keys) :
    add d (table keys docsOf)
      = table keys fun key => docsOf key ++ if d.groupKey = key then [d] else [] := by
  induction keys with
  | nil => cases h
  | cons key keys ih =>
    obtain ⟨hkey, hkeys⟩ := List.nodup_cons.mp hnodup
    show (if key = d.groupKey then (key, docsOf key ++ [d]) :: table keys docsOf
      else (key, docsOf key) :: add d (table keys docsOf)) = _
    split
    · next heq =>
      -- No later group has this name.
      rw [← table_of_notMem docsOf (heq ▸ hkey)]
      simp [table, heq]
    · next hne =>
      rw [ih hkeys ((List.mem_cons.mp h).resolve_left (Ne.symm hne))]
      simp [table, Ne.symm hne]

/-- **The groups of some docs**: each is the part of the docs that belongs to it. -/
theorem ofDocs_eq (docs : List FunctionDoc) :
    ofDocs docs = table (groupKeys docs) fun key => docs.filter (·.groupKey = key) := by
  induction docs using List.reverseRecOn with
  | nil => rfl
  | append_singleton docs d ih =>
    have hstep : ofDocs (docs ++ [d]) = add d (ofDocs docs) := by
      rw [ofDocs, List.foldl_append]
      rfl
    have hfilter : (fun key => (docs ++ [d]).filter (·.groupKey = key))
        = fun key => docs.filter (·.groupKey = key) ++ if d.groupKey = key then [d] else [] := by
      funext key
      rw [List.filter_append]
      by_cases h : d.groupKey = key <;> simp [h]
    rw [hstep, ih, groupKeys_append, hfilter]
    by_cases h : d.groupKey ∈ groupKeys docs
    · rw [add_table_of_mem (nodup_groupKeys docs) h, if_pos h, List.append_nil]
    · -- No doc so far belongs to the new group.
      rw [add_table_of_notMem h, if_neg h, ← table_of_notMem _ h]
      simp [table, filter_groupKey_eq_nil h]

theorem map_fst_ofDocs (docs : List FunctionDoc) : (ofDocs docs).map (·.1) = groupKeys docs := by
  rw [ofDocs_eq, table, List.map_map]
  exact List.map_id _

theorem flatMap_ofDocs (docs : List FunctionDoc) :
    (ofDocs docs).flatMap (·.2) = inGroupOrder docs := by
  rw [ofDocs_eq, table, List.flatMap_map]
  rfl

theorem lookup_table (keys : List Text) (docsOf : Text → List FunctionDoc) (key : Text) :
    (table keys docsOf).lookup key = if key ∈ keys then some (docsOf key) else none := by
  induction keys with
  | nil => rfl
  | cons first keys ih =>
    show (match key == first with | true => _ | false => _) = _
    by_cases h : key = first
    · subst h
      simp
    · rw [beq_false_of_ne h]
      simp only [List.mem_cons, h, false_or]
      exact ih

/-- The docs that are looked up under a name are those of the group, also if there is none. -/
theorem lookup_ofDocs (docs : List FunctionDoc) (key : Text) :
    ((ofDocs docs).lookup key).getD [] = docs.filter (·.groupKey = key) := by
  rw [ofDocs_eq, lookup_table]
  split
  · rfl
  · next h => exact (filter_groupKey_eq_nil h).symm

end Groups

theorem mem_inGroupOrder {docs : List FunctionDoc} {d : FunctionDoc} :
    d ∈ inGroupOrder docs ↔ d ∈ docs := by
  simp only [inGroupOrder, List.mem_flatMap, List.mem_filter, decide_eq_true_eq]
  constructor
  · rintro ⟨-, -, hd, -⟩
    exact hd
  · intro hd
    exact ⟨d.groupKey, mem_groupKeys.mpr ⟨d, hd, rfl⟩, hd, rfl⟩

/-- Docs of one group stand in its order already. -/
theorem inGroupOrder_of_forall {docs : List FunctionDoc} {key : Text}
    (h : ∀ d ∈ docs, d.groupKey = key) : inGroupOrder docs = docs := by
  cases docs with
  | nil => rfl
  | cons d docs =>
    obtain ⟨rfl, hdocs⟩ := List.forall_mem_cons.mp h
    have hkeys : groupKeys (d :: docs) = [d.groupKey] := by
      rw [groupKeys, List.map_cons, List.eraseDups_cons, List.filter_eq_nil_iff.mpr]
      · rfl
      · simpa using hdocs
    rw [inGroupOrder, hkeys, List.flatMap_singleton]
    exact List.filter_eq_self.mpr fun e he => decide_eq_true (h e he)

/-! ## Listed docs -/

namespace NamespaceInfo

/-- A namespace lists a doc as the constructor or as a member. -/
theorem mem_allMembers_build {docs : List FunctionDoc} {key : Text} {d : FunctionDoc} :
    d ∈ (build (Groups.ofDocs docs) key).allMembers ↔
      (inGroupOrder docs).find? (·.name = key) = some d ∨
        d ∈ docs ∧ d.groupKey = key ∧ d.name ≠ key := by
  show d ∈ Option.toList (List.find? _ _) ++ _ ↔ _
  rw [Groups.flatMap_ofDocs, Groups.lookup_ofDocs, List.mem_append, Option.mem_toList,
    List.mem_mergeSort, List.mem_filter, List.mem_filter, and_assoc]
  simp only [decide_eq_true_eq]

/-- A namespace lists nothing but docs that it was made of. -/
theorem mem_of_mem_allMembers {docs : List FunctionDoc} {key : Text} {d : FunctionDoc}
    (h : d ∈ (build (Groups.ofDocs docs) key).allMembers) : d ∈ docs := by
  obtain hfind | ⟨hd, -⟩ := mem_allMembers_build.mp h
  · exact mem_inGroupOrder.mp (List.mem_of_find?_eq_some hfind)
  · exact hd

/-- The namespaces of some docs are those of their groups. -/
theorem mem_aggregate {docs : List FunctionDoc} {info : NamespaceInfo} :
    info ∈ aggregate docs [] ↔ ∃ d ∈ docs, info = build (Groups.ofDocs docs) d.groupKey := by
  rw [aggregate, if_pos List.isEmpty_nil, Groups.map_fst_ofDocs, List.mem_map]
  constructor
  · rintro ⟨key, hkey, rfl⟩
    obtain ⟨d, hd, rfl⟩ := mem_groupKeys.mp (List.mem_mergeSort.mp hkey)
    exact ⟨d, hd, rfl⟩
  · rintro ⟨d, hd, rfl⟩
    exact ⟨d.groupKey, List.mem_mergeSort.mpr (mem_groupKeys.mpr ⟨d, hd, rfl⟩), rfl⟩

/-- A doc with the name of its group can be listed as a constructor only. -/
theorem find?_of_mem_allMembers {docs : List FunctionDoc} {key : Text} {d : FunctionDoc}
    (hname : d.name = d.groupKey) (h : d ∈ (build (Groups.ofDocs docs) key).allMembers) :
    (inGroupOrder docs).find? (·.name = d.name) = some d := by
  obtain hfind | ⟨-, hkey, hne⟩ := mem_allMembers_build.mp h
  · have hkey : d.name = key := by simpa using List.find?_some hfind
    rwa [hkey]
  · exact absurd (hname.trans hkey) hne

/-- **Which docs are listed**: those that do not bear the name of their group, and of those that
do the first one of each name, group by group. -/
theorem listed_iff (docs : List FunctionDoc) (d : FunctionDoc) :
    (∃ info ∈ aggregate docs [], d ∈ info.allMembers) ↔
      d ∈ docs ∧
        (d.name ≠ d.groupKey ∨ (inGroupOrder docs).find? (·.name = d.name) = some d) := by
  constructor
  · rintro ⟨info, hinfo, hd⟩
    obtain ⟨e, -, rfl⟩ := mem_aggregate.mp hinfo
    refine ⟨?_, ?_⟩
    · obtain hfind | ⟨hd, -⟩ := mem_allMembers_build.mp hd
      · exact mem_inGroupOrder.mp (List.mem_of_find?_eq_some hfind)
      · exact hd
    · exact Decidable.or_iff_not_imp_left.mpr fun hname =>
        find?_of_mem_allMembers (Decidable.not_not.mp hname) hd
  · rintro ⟨hd, hlisted⟩
    -- The doc's own namespace lists it in either case.
    refine ⟨_, mem_aggregate.mpr ⟨d, hd, rfl⟩, mem_allMembers_build.mpr ?_⟩
    by_cases hname : d.name = d.groupKey
    · exact .inl (hname ▸ hlisted.resolve_left fun hne => hne hname)
    · exact .inr ⟨hd, rfl, hname⟩

end NamespaceInfo

namespace Session

/-- Without a pattern for names, a library lists the namespaces of its docs. -/
theorem namespaces_eq_aggregate {s : Session} {text : Text} {library : Library}
    {errors : List CommentError} (hgrep : s.grep = none)
    (hparse : s.parse text = (.ok library, errors)) :
    library.namespaces = NamespaceInfo.aggregate library.docs s.settings.namespaces := by
  obtain ⟨index, docs, -, -, -, rfl⟩ := parse_eq_ok hparse
  simp only [assemble, hgrep]

/-- A source that documents the function `f` twice, and a member of it. -/
def repeatedText : Text :=
  "/** a */\nfunction f() \x7b\x7d\n/** b */\nfunction f() \x7b\x7d\n"
    ++ "/** c */\nf.g = function() \x7b\x7d;\n"

/-- The tree of `repeatedText`. -/
def repeatedTree : SyntaxTree :=
  .node "program" true 0 80 none
    [.node "comment" true 0 8 none [],
     .node "function_declaration" true 9 24 none
       [.node "identifier" true 18 19 (some "name") []],
     .node "comment" true 25 33 none [],
     .node "function_declaration" true 34 49 none
       [.node "identifier" true 43 44 (some "name") []],
     .node "comment" true 50 58 none [],
     .node "expression_statement" true 59 79 none
       [.node "assignment_expression" true 59 78 none
         [.node "member_expression" true 59 62 (some "left")
           [.node "identifier" true 59 60 (some "object") [],
            .node "property_identifier" true 61 62 (some "property") []],
          .node "function_expression" true 65 78 (some "right") []]]]

/-- What tells the docs of `repeatedText` apart. -/
def repeatedDocs : List (Text × Text × Nat) := [("f", "f", 0), ("f", "f", 1), ("f.g", "f", 2)]

/-- **A doc that no namespace lists**: the second of two docs of one name. -/
theorem second_doc_unlisted :
    ∃ library errors, (ofTree repeatedTree).parse repeatedText = (.ok library, errors) ∧
      library.docs.map (fun d => (d.name, d.groupKey, d.number)) = repeatedDocs ∧
      ∃ d ∈ library.docs, ∀ info ∈ library.namespaces, d ∉ info.allMembers := by
  have hsource : Source.parse (ofTree repeatedTree).script repeatedText
      = ⟨repeatedText, .ofTree repeatedText repeatedTree,
          BlockComment.ofTree repeatedText repeatedTree⟩ :=
    Source.ofTree_of_pairwise (by decide +kernel)
  obtain ⟨library, errors, hparse, hdocs⟩ : ∃ library errors,
      (ofTree repeatedTree).parse repeatedText = (.ok library, errors) ∧
        library.docs.map (fun d => (d.name, d.groupKey, d.number)) = repeatedDocs := by
    refine exists_parse_eq_ok ?_
    unfold parse
    rw [hsource]
    decide +kernel
  have hgroup : ∀ d ∈ library.docs, d.groupKey = "f" := by
    have hall : ∀ v ∈ repeatedDocs, v.2.1 = "f" := by decide
    exact fun d hd => hall _ (hdocs ▸ List.mem_map_of_mem hd)
  obtain ⟨second, hsecond, hview⟩ := List.mem_map.mp
    (hdocs ▸ (by decide : (("f", "f", 1) : Text × Text × Nat) ∈ repeatedDocs))
  have hname : second.name = "f" := congrArg (·.1) hview
  have hnumber : second.number = 1 := congrArg (·.2.2) hview
  refine ⟨library, errors, hparse, hdocs, second, hsecond, fun info hinfo hmem => ?_⟩
  rw [namespaces_eq_aggregate rfl hparse] at hinfo
  obtain ⟨d, -, rfl⟩ := NamespaceInfo.mem_aggregate.mp hinfo
  have hfind := NamespaceInfo.find?_of_mem_allMembers
    (hname.trans (hgroup second hsecond).symm) hmem
  rw [inGroupOrder_of_forall hgroup, hname] at hfind
  -- The first doc of this name has another number.
  have hfirst : (repeatedDocs.find? (·.1 = ("f" : Text))).map (·.2.2) = some 1 := by
    rw [← hdocs, List.find?_map, Option.map_map]
    exact (congrArg _ hfind).trans (congrArg some hnumber)
  exact absurd hfirst (by decide)

end Session

end DocModel
