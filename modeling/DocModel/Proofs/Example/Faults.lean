import DocModel.Proofs.Example.Benchmarks
import DocModel.Proofs.Handler.Defaults

/-!
# When examples cannot be built

With the default handlers alone, building the examples of a comment fails for one reason only: some
expected value asks how often a callback is called, and the count is a numeral that cannot be read.
One such value is enough, and then there are no examples at all. Every other expected value gives an
example, if need be a broken one, and benchmarks are always built
(`ExampleBuilder.examples_standard`).

That a computation fails exactly under some condition, and with a fault of this kind, is carried
through its steps as one notion (`Handler.FaultsIff`).
-/

namespace DocModel

namespace Handler

/-- **A computation fails exactly under a condition**, and then because of a count. -/
def FaultsIff {α : Type} (x : Except Fault α) (bad : Prop) : Prop :=
  (bad → ∃ problem, x = .error (.badCount problem)) ∧ (¬ bad → ∃ a, x = .ok a)

namespace FaultsIff

variable {α β : Type} {x : Except Fault α} {bad worse : Prop}

theorem ok (a : α) : FaultsIff (.ok a) False := ⟨False.elim, fun _ => ⟨a, rfl⟩⟩

theorem congr (h : FaultsIff x bad) (hiff : bad ↔ worse) : FaultsIff x worse := propext hiff ▸ h

/-- Two steps fail if one of them does. -/
theorem bind {f : α → Except Fault β} (hx : FaultsIff x bad)
    (hf : ∀ a, x = .ok a → FaultsIff (f a) worse) : FaultsIff (x >>= f) (bad ∨ worse) := by
  by_cases hbad : bad
  · obtain ⟨problem, heq⟩ := hx.1 hbad
    rw [heq]
    exact ⟨fun _ => ⟨problem, rfl⟩, fun h => absurd (Or.inl hbad) h⟩
  · obtain ⟨a, heq⟩ := hx.2 hbad
    rw [heq]
    exact (hf a heq).congr (or_iff_right hbad).symm

/-- A step that makes something of a result does not fail. -/
theorem map {f : α → β} (h : FaultsIff x bad) : FaultsIff (x >>= fun a => .ok (f a)) bad :=
  (h.bind fun a _ => ok (f a)).congr (or_iff_left not_false)

end FaultsIff

/-! ## One expected value -/

/-- **An expected value that asks for a count that cannot be read.** -/
def AsksUnreadable (expected : Text) : Prop :=
  ∃ r : CallRequest, r.text = expected ∧ Count.Unreadable r.count

theorem buildData_of_isTotal {h : Handler} (hdata : h.data.isTotal = true) (m : Match) :
    FaultsIff (h.buildData m) False := by
  unfold buildData
  cases hrule : h.data with
  | matched => exact .ok _
  | groups names => exact .ok _
  | calls =>
    rw [hrule] at hdata
    cases hdata
  | other v =>
    rw [hrule] at hdata
    cases hdata

theorem buildData_of_calls {h : Handler} (hdata : h.data = .calls) {m : Match}
    {r : CallRequest} (hm : m.group 2 = some r.count) :
    FaultsIff (h.buildData m) (Count.Unreadable r.count) := by
  have hword : (m.group 2).getD [] = r.count := by
    rw [hm]
    rfl
  rw [← Count.ofWord_eq_error_iff r.count_run, buildData, hdata]
  simp only [hword]
  cases Count.ofWord r.count with
  | error problem => exact ⟨fun _ => ⟨problem, rfl⟩, fun h => absurd ⟨problem, rfl⟩ h⟩
  | ok count => exact ⟨fun ⟨_, h⟩ => (by cases h), fun _ => ⟨_, rfl⟩⟩

/-- What the first handler makes of an expected value in which it finds something. -/
theorem buildData_of_find {expected : Text} {i : Nat} {h : Handler} {m : Match}
    (hfind : find defaults expected = .ok (some (i, h, m))) :
    FaultsIff (h.buildData m) (AsksUnreadable expected) := by
  obtain ⟨hmem, hsearch⟩ := findFrom_eq_ok_some hfind
  obtain ⟨-, -, hrule⟩ := mem_defaults hmem
  -- A request is found by a handler for calls, so by no other one.
  have hrequest (r : CallRequest) (hr : r.text = expected) : h = calls ∨ h = laterCalls := by
    obtain ⟨i', h', m', hfind', hcalls, -⟩ := find_defaults_request r
    rw [hr, hfind] at hfind'
    cases hfind'
    exact hcalls
  have hcase (hcalls : h = calls ∨ h = laterCalls) :
      FaultsIff (h.buildData m) (AsksUnreadable expected) := by
    obtain ⟨r, hr, hcount⟩ := exists_request_of_search hcalls hsearch
    have hdata : h.data = .calls := by obtain rfl | rfl := hcalls <;> rfl
    refine (buildData_of_calls hdata hcount).congr ⟨fun hbad => ⟨r, hr, hbad⟩, ?_⟩
    rintro ⟨s, hs, hbad⟩
    rwa [CallRequest.count_inj (hr.trans hs.symm)]
  obtain htotal | hcalls := hrule
  · by_cases hasks : AsksUnreadable expected
    · obtain ⟨r, hr, -⟩ := hasks
      exact hcase (hrequest r hr)
    · exact (buildData_of_isTotal htotal m).congr (iff_of_false not_false hasks)
  · exact hcase hcalls

end Handler

namespace ExampleBuilder

open Handler

/-- The builder with the default handlers alone. -/
def standard (script : ScriptParser) : ExampleBuilder := ⟨Handler.defaults, [], script⟩

variable (script : ScriptParser)

theorem check_standard (actual expected : Text) :
    FaultsIff ((standard script).check actual expected) (AsksUnreadable expected) := by
  obtain ⟨found, hfind⟩ : ∃ found, find defaults expected = .ok found :=
    exists_findFrom (fun h hmem => (mem_defaults hmem).1) 0
  show FaultsIff (find defaults expected >>= _) _
  rw [hfind]
  cases found with
  | none =>
    -- Nothing is found, so nothing is asked.
    have hasks : ¬ AsksUnreadable expected := by
      rintro ⟨r, rfl, -⟩
      obtain ⟨i, h, m, hsome, -⟩ := find_defaults_request r
      rw [hfind] at hsome
      cases hsome
    refine ⟨fun h => absurd h hasks, fun _ => ?_⟩
    show ∃ a, (if script.acceptsProgram actual && script.acceptsExpression expected then
      Except.ok Check.comparison else Except.ok Check.broken) = Except.ok a
    split <;> exact ⟨_, rfl⟩
  | some place =>
    obtain ⟨i, h, m⟩ := place
    obtain ⟨-, htest, -⟩ := mem_defaults (findFrom_eq_ok_some hfind).1
    show FaultsIff (if h.test.isNull then
      h.buildData m >>= fun data => .ok (Check.template i h.template data) else _) _
    rw [htest]
    exact (buildData_of_find hfind).map

/-! ## The examples of a comment -/

theorem examplesOfPairs_standard (start : Int) (next : Nat) (ps : List Directive.Pair) :
    FaultsIff ((standard script).examplesOfPairs start next ps)
      (∃ p ∈ ps, AsksUnreadable p.right) := by
  induction ps generalizing next with
  | nil => exact (FaultsIff.ok []).congr (by simp)
  | cons p ps ih =>
    rw [examplesOfPairs, List.exists_mem_cons_iff]
    exact (check_standard script p.left p.right).bind fun check _ => (ih (next + 1)).map

/-- The pairs in the tags with examples. -/
def examplePairs (doclet : Doclet) : List Directive.Pair :=
  (doclet.findTags ["examples", "example"]).flatMap fun tag =>
    (Directive.Block.parse (fun _ => false) tag.description).pairs

theorem exampleBlocks_standard (start : Int) (next : Nat) (tags : List Tag) :
    FaultsIff ((standard script).exampleBlocks start next tags)
      (∃ p ∈ tags.flatMap fun tag =>
          (Directive.Block.parse (fun _ => false) tag.description).pairs,
        AsksUnreadable p.right) := by
  induction tags generalizing next with
  | nil => exact (FaultsIff.ok []).congr (by simp)
  | cons tag tags ih =>
    have hread : (standard script).readBlock tag.description
        = .ok (Directive.Block.parse (fun _ => false) tag.description) := readBlock_of_custom rfl _
    rw [exampleBlocks, hread]
    refine ((examplesOfPairs_standard script _ next _).bind fun examples _ =>
      (ih _).map).congr ?_
    simp only [List.flatMap_cons, List.mem_append, or_and_right, exists_or]

theorem exists_benchmarkBlocks (nextCase next : Nat) (tags : List Tag) :
    ∃ blocks, (standard script).benchmarkBlocks nextCase next tags = .ok blocks :=
  exists_benchmarkBlocks_of_patterns (fun _ hmem => absurd hmem List.not_mem_nil) nextCase next tags

/-- The examples that are built are the pairs in the tags. -/
theorem sides_of_examples_eq_ok {doclet : Doclet} {start : Int} {examples : Examples}
    (h : (standard script).examples doclet start = .ok examples) :
    examples.items.map (fun e => (e.actual, e.expected))
      = (examplePairs doclet).map fun p => (p.left, p.right) := by
  have hplace := congrArg (List.map Prod.snd) (items_of_examples_eq_ok h)
  rw [List.map_map, List.map_flatMap] at hplace
  simp only [List.map_map] at hplace
  rw [examplePairs, List.map_flatMap]
  exact hplace

/-- **Building examples fails only because of a count that cannot be read.** With the default
handlers alone, the examples of a comment are built, one for each pair in its tags, unless an
expected value asks for such a count. If one does, the whole comment has no examples. Benchmarks are
built in every case. -/
theorem examples_standard (doclet : Doclet) (start : Int) :
    ((∃ examples, (standard script).examples doclet start = .ok examples ∧
        examples.items.map (fun e => (e.actual, e.expected))
          = (examplePairs doclet).map fun p => (p.left, p.right)) ↔
      ∀ p ∈ examplePairs doclet, ¬ AsksUnreadable p.right) ∧
    (∀ fault, (standard script).examples doclet start = .error fault →
      ∃ problem, fault = .badCount problem) ∧
    ∃ benchmarks, (standard script).benchmarks doclet = .ok benchmarks := by
  have hfaults : FaultsIff ((standard script).examples doclet start)
      (∃ p ∈ examplePairs doclet, AsksUnreadable p.right) :=
    (exampleBlocks_standard script start 1 _).map
  refine ⟨⟨?_, fun hnone => ?_⟩, fun fault hfault => ?_, ?_⟩
  · rintro ⟨examples, hexamples, -⟩ p hp hasks
    obtain ⟨problem, herror⟩ := hfaults.1 ⟨p, hp, hasks⟩
    rw [hexamples] at herror
    cases herror
  · obtain ⟨examples, hexamples⟩ := hfaults.2 fun ⟨p, hp, hasks⟩ => hnone p hp hasks
    exact ⟨examples, hexamples, sides_of_examples_eq_ok script hexamples⟩
  · by_cases hasks : ∃ p ∈ examplePairs doclet, AsksUnreadable p.right
    · obtain ⟨problem, herror⟩ := hfaults.1 hasks
      rw [hfault] at herror
      exact ⟨problem, Except.error.inj herror⟩
    · obtain ⟨examples, hexamples⟩ := hfaults.2 hasks
      rw [hfault] at hexamples
      cases hexamples
  · obtain ⟨blocks, hblocks⟩ := exists_benchmarkBlocks script 1 1 (doclet.findTags ["benchmarks"])
    exact ⟨⟨blocks⟩, Except.bind_eq_ok_iff.mpr ⟨blocks, hblocks, rfl⟩⟩

/-- A superscript two is a digit without a decimal value, so one example with it is enough for
a comment to have none. -/
theorem examples_superscript : ∃ doclet,
    Doclet.parse "*\n * @examples\n * g(f) // => calls f ²\n " = .ok doclet ∧
      ∀ script, (standard script).examples doclet 1 = .error (.badCount (.noDecimal "²")) :=
  ⟨_, rfl, fun _ => rfl⟩

end ExampleBuilder

end DocModel
