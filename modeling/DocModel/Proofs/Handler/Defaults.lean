import DocModel.Proofs.Handler.Counts
import DocModel.Proofs.Handler.Finding

/-!
# What the default handlers find

The default handlers are tried in order. An expected value that asks for a count is found by one of
the two handlers for calls: nothing that is tried before them is found in it
(`Handler.find_defaults_request`). And what these two find is such a request
(`Handler.exists_request_of_search`). All other handlers make data of everything that they find.
-/

namespace DocModel

/-! ## The handlers for calls -/

/-- Whether a rule makes data of every match. -/
def DataRule.isTotal : DataRule → Bool
  | .matched | .groups _ => true
  | .calls | .other _ => false

/-- The pattern for calls. -/
def Pattern.calls : Pattern :=
  ⟨"^calls\\s+(\\w+)\\s+(\\w+)(?:\\s+times?)?$", .seq .start (.calls .callsEnding), 2⟩

/-- The pattern for calls that come later. -/
def Pattern.laterCalls : Pattern :=
  ⟨"^calls\\s+(\\w+)\\s+(\\w+)\\s+times? asynchronously$", .seq .start (.calls .laterEnding), 2⟩

section Calls

variable {p : Pattern} {ending : Regex} (hp : p.regex = .seq .start (.calls ending))
  {q : Text → Text → Prop} (hending : ending.Takes q)
include hp hending

/-- What a pattern for calls finds is a request, and its second group is the count. -/
theorem Pattern.exists_request_of_search_eq_some (hcount : p.groupCount = 2)
    (hq : ∀ t rest, q t rest → ((t = [] ∨ IsCallUnit callUnits t) ∨ IsCallUnit laterCallUnits t) ∧
      (rest = [] ∨ rest = ['\n']))
    {text : Text} {m : Match} (hsearch : p.search text = some m) :
    ∃ r : CallRequest, r.text = text ∧ m.group 2 = some r.count := by
  obtain ⟨e, hmatch, hm⟩ := search_eq_some hp hsearch
  obtain ⟨r, htext, he⟩ := Regex.exists_request_of_matches hending hq hmatch
  refine ⟨r, htext, ?_⟩
  rw [Match.group, hm, hcount, he]
  rfl

/-- A pattern for calls finds the requests with its units. -/
theorem Pattern.exists_search_request (hall : ending.Exhaustive) (r : CallRequest)
    (hr : q r.unit r.ending) : ∃ m, p.search r.text = some m := by
  obtain ⟨e, he⟩ := Regex.exists_matches_of_request hending r hr
  exact Option.isSome_iff_exists.mp (isSome_search hp (Regex.exhaustive_calls hall) he)

end Calls

namespace Handler

/-- The handler for calls. -/
def calls : Handler := ⟨.pattern Pattern.calls.finder, .text "calls", .null, .calls⟩

/-- The handler for calls that come later. -/
def laterCalls : Handler := ⟨.pattern Pattern.laterCalls.finder, .text "calls_async", .null, .calls⟩

/-- The row for calls. -/
def callsRule : Text × Text × DataRule := (Pattern.calls.source, "calls", .calls)

/-- The row for calls that come later. -/
def laterRule : Text × Text × DataRule := (Pattern.laterCalls.source, "calls_async", .calls)

theorem ofRule?_callsRule : ofRule? callsRule = some calls := by exact rfl

theorem ofRule?_laterRule : ofRule? laterRule = some laterCalls := by exact rfl

/-- The handlers that are tried before those for calls. -/
def earlier : List Handler := (defaultRules.take 5).filterMap ofRule?

/-- The handlers that are tried after those for calls. -/
def later : List Handler := (defaultRules.drop 7).filterMap ofRule?

theorem defaults_eq : defaults = earlier ++ calls :: laterCalls :: later := by
  have hrules : defaultRules
      = defaultRules.take 5 ++ callsRule :: laterRule :: defaultRules.drop 7 := rfl
  rw [defaults, hrules, List.filterMap_append, List.filterMap_cons_some ofRule?_callsRule,
    List.filterMap_cons_some ofRule?_laterRule]
  rfl

/-- Default handlers have a pattern and no test of their own, and only the two for calls have a
rule that may fail. -/
theorem mem_defaults {h : Handler} (hmem : h ∈ defaults) :
    (∃ p, h.matcher = .pattern p) ∧ h.test = .null ∧
      (h.data.isTotal = true ∨ h = calls ∨ h = laterCalls) := by
  have htable {rules : List (Text × Text × DataRule)}
      (htotal : rules.all (·.2.2.isTotal) = true) (hmem : h ∈ rules.filterMap ofRule?) :
      (∃ p, h.matcher = .pattern p) ∧ h.test = .null ∧
        (h.data.isTotal = true ∨ h = calls ∨ h = laterCalls) := by
    obtain ⟨rule, hrule, hh⟩ := List.mem_filterMap.mp hmem
    obtain ⟨p, -, rfl⟩ := Option.map_eq_some_iff.mp hh
    exact ⟨⟨p.finder, rfl⟩, rfl, Or.inl (List.all_eq_true.mp htotal rule hrule)⟩
  rw [defaults_eq, List.mem_append, List.mem_cons, List.mem_cons] at hmem
  obtain hmem | rfl | rfl | hmem := hmem
  · exact htable (by decide) hmem
  · exact ⟨⟨_, rfl⟩, rfl, Or.inr (Or.inl rfl)⟩
  · exact ⟨⟨_, rfl⟩, rfl, Or.inr (Or.inr rfl)⟩
  · exact htable (by decide) hmem

/-- What is tried before the handlers for calls: comparisons, and patterns that start with another
letter. -/
theorem mem_earlier {h : Handler} (hmem : h ∈ earlier) :
    ∃ p : Pattern, h.matcher = .pattern p.finder ∧
    ((∃ sign rest, sign ∈ ['=', '!'] ∧ p.regex = .seq .start (.comparison sign rest)) ∨
      ∃ x rest, x ≠ 'c' ∧ p.regex = .seq .start (.seq (.char false x) rest)) := by
  have hrules : ∀ rule ∈ defaultRules.take 5, ∃ p, (Pattern.parse rule.1).toOption = some p ∧
      ((∃ sign rest, sign ∈ ['=', '!'] ∧ p.regex = .seq .start (.comparison sign rest)) ∨
        ∃ x rest, x ≠ 'c' ∧ p.regex = .seq .start (.seq (.char false x) rest)) := by
    refine List.forall_mem_cons.mpr ⟨⟨_, rfl, Or.inl ⟨'=', _, by decide, rfl⟩⟩, ?_⟩
    refine List.forall_mem_cons.mpr ⟨⟨_, rfl, Or.inl ⟨'!', _, by decide, rfl⟩⟩, ?_⟩
    refine List.forall_mem_cons.mpr ⟨⟨_, rfl, Or.inr ⟨'i', _, by decide, rfl⟩⟩, ?_⟩
    refine List.forall_mem_cons.mpr ⟨⟨_, rfl, Or.inr ⟨'N', _, by decide, rfl⟩⟩, ?_⟩
    refine List.forall_mem_cons.mpr ⟨⟨_, rfl, Or.inr ⟨'t', _, by decide, rfl⟩⟩, ?_⟩
    exact List.forall_mem_nil _
  obtain ⟨rule, hrule, hh⟩ := List.mem_filterMap.mp hmem
  obtain ⟨p, hp, hregex⟩ := hrules rule hrule
  rw [ofRule?, hp] at hh
  cases hh
  exact ⟨p, rfl, hregex⟩

/-! ## What the handlers find -/

theorem exists_request_of_search {h : Handler} (hcalls : h = calls ∨ h = laterCalls) {text : Text}
    {m : Match} (hsearch : h.search text = .ok (some m)) :
    ∃ r : CallRequest, r.text = text ∧ m.group 2 = some r.count := by
  obtain rfl | rfl := hcalls
  · exact Pattern.exists_request_of_search_eq_some (p := .calls) rfl Regex.takes_callsEnding rfl
      (fun t rest h => ⟨Or.inl h.1, h.2⟩) (Except.ok.inj hsearch)
  · exact Pattern.exists_request_of_search_eq_some (p := .laterCalls) rfl
      Regex.takes_laterEnding rfl (fun t rest h => ⟨Or.inr h.1, h.2⟩) (Except.ok.inj hsearch)

/-- One of the two handlers for calls finds a request. -/
theorem isSome_search_request (r : CallRequest) :
    (∃ m, calls.search r.text = .ok (some m)) ∨ ∃ m, laterCalls.search r.text = .ok (some m) := by
  obtain hunit | hunit := r.unit_form
  · obtain ⟨m, hm⟩ := Pattern.exists_search_request (p := .calls) rfl Regex.takes_callsEnding
      Regex.exhaustive_callsEnding r ⟨hunit, r.ending_form⟩
    exact Or.inl ⟨m, congrArg Except.ok hm⟩
  · obtain ⟨m, hm⟩ := Pattern.exists_search_request (p := .laterCalls) rfl Regex.takes_laterEnding
      Regex.exhaustive_laterEnding r ⟨hunit, r.ending_form⟩
    exact Or.inr ⟨m, congrArg Except.ok hm⟩

theorem search_earlier (r : CallRequest) : ∀ h ∈ earlier, h.search r.text = .ok none := by
  intro h hmem
  obtain ⟨p, hp, hregex⟩ := mem_earlier hmem
  rw [search, hp]
  refine congrArg Except.ok ?_
  obtain ⟨sign, rest, hsign, hregex⟩ | ⟨x, rest, hx, hregex⟩ := hregex
  · exact Pattern.search_eq_none hregex (Regex.not_matches_comparison r hsign rest)
  · refine Pattern.search_eq_none hregex fun e he => ?_
    obtain ⟨_, _, htext, rfl, -⟩ := (Regex.takes_char x).matches_seq_iff.mp he
    exact hx (List.cons.inj htext).1.symm

/-- **A request for a count is found by a handler for calls**, which remembers the count. -/
theorem find_defaults_request (r : CallRequest) :
    ∃ i h m, find defaults r.text = .ok (some (i, h, m)) ∧ (h = calls ∨ h = laterCalls) ∧
      m.group 2 = some r.count := by
  have hgroup {h : Handler} {m : Match} (hcalls : h = calls ∨ h = laterCalls)
      (hsearch : h.search r.text = .ok (some m)) : m.group 2 = some r.count := by
    obtain ⟨s, htext, hcount⟩ := exists_request_of_search hcalls hsearch
    rw [hcount, CallRequest.count_inj htext]
  rw [find, defaults_eq, findFrom_append (search_earlier r)]
  cases hfirst : calls.search r.text with
  | error fault => cases hfirst
  | ok found =>
    cases found with
    | some m =>
      refine ⟨0 + earlier.length, calls, m, ?_, Or.inl rfl, hgroup (Or.inl rfl) hfirst⟩
      rw [findFrom, hfirst]
      rfl
    | none =>
      obtain ⟨m, hm⟩ | ⟨m, hm⟩ := isSome_search_request r
      · rw [hfirst] at hm
        cases hm
      · refine ⟨0 + earlier.length + 1, laterCalls, m, ?_, Or.inr rfl, hgroup (Or.inr rfl) hm⟩
        rw [findFrom, hfirst]
        show findFrom r.text _ (laterCalls :: later) = _
        rw [findFrom, hm]
        rfl

end Handler

end DocModel
