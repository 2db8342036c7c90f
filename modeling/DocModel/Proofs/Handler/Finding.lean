import DocModel.Handler.Basic
import DocModel.Proofs.Basic

/-!
# Finding a handler

Handlers are tried one after the other, and the first one that finds something counts. So what is
found among some handlers is a place in their list: those before it find nothing
(`Handler.findFrom_eq_ok_some_iff`). Handlers that are tried later change nothing
(`Handler.find_append`). Looking fails only at a handler without a pattern.
-/

namespace DocModel.Handler

variable {expected : Text} {index i : Nat} {hs : List Handler} {h : Handler} {m : Match}

/-- Handlers that find nothing are passed over. -/
theorem findFrom_append {before : List Handler}
    (hbefore : ∀ h ∈ before, h.search expected = .ok none) (index : Nat) (after : List Handler) :
    findFrom expected index (before ++ after)
      = findFrom expected (index + before.length) after := by
  induction before generalizing index with
  | nil => rfl
  | cons h before ih =>
    obtain ⟨hsearch, hbefore⟩ := List.forall_mem_cons.mp hbefore
    have hstep : findFrom expected index (h :: (before ++ after))
        = findFrom expected (index + 1) (before ++ after) := by
      rw [findFrom, hsearch]
      rfl
    rw [List.cons_append, hstep, ih hbefore, List.length_cons, Nat.add_assoc, Nat.add_comm 1]

/-- **The first handler that finds something counts.** -/
theorem findFrom_eq_ok_some_iff :
    findFrom expected index hs = .ok (some (i, h, m)) ↔
      ∃ before after, hs = before ++ h :: after ∧ i = index + before.length ∧
        (∀ h' ∈ before, h'.search expected = .ok none) ∧ h.search expected = .ok (some m) := by
  constructor
  · intro hfind
    induction hs generalizing index with
    | nil => cases hfind
    | cons h' hs ih =>
      obtain ⟨found, hsearch, hfind⟩ := Except.bind_eq_ok_iff.mp hfind
      cases found with
      | none =>
        obtain ⟨before, after, rfl, rfl, hbefore, hfound⟩ := ih hfind
        refine ⟨h' :: before, after, rfl, ?_, List.forall_mem_cons.mpr ⟨hsearch, hbefore⟩, hfound⟩
        rw [List.length_cons, Nat.add_assoc, Nat.add_comm 1]
      | some m' =>
        cases hfind
        exact ⟨[], hs, rfl, rfl, fun _ hmem => absurd hmem List.not_mem_nil, hsearch⟩
  · rintro ⟨before, after, rfl, rfl, hbefore, hsearch⟩
    rw [findFrom_append hbefore, findFrom, hsearch]
    rfl

theorem findFrom_eq_ok_some (hfind : findFrom expected index hs = .ok (some (i, h, m))) :
    h ∈ hs ∧ h.search expected = .ok (some m) := by
  obtain ⟨before, after, rfl, -, -, hsearch⟩ := findFrom_eq_ok_some_iff.mp hfind
  exact ⟨List.mem_append_right _ List.mem_cons_self, hsearch⟩

/-- **What is found among the first handlers is found among all.** -/
theorem find_append (hfind : find hs expected = .ok (some (i, h, m))) (later : List Handler) :
    find (hs ++ later) expected = .ok (some (i, h, m)) := by
  obtain ⟨before, after, rfl, hi, hbefore, hsearch⟩ := findFrom_eq_ok_some_iff.mp hfind
  refine findFrom_eq_ok_some_iff.mpr ⟨before, after ++ later, ?_, hi, hbefore, hsearch⟩
  rw [List.append_assoc, List.cons_append]

/-- Handlers with patterns never fail to look. -/
theorem exists_findFrom (hpattern : ∀ h ∈ hs, ∃ p, h.matcher = .pattern p) (index : Nat) :
    ∃ found, findFrom expected index hs = .ok found := by
  induction hs generalizing index with
  | nil => exact ⟨none, rfl⟩
  | cons h hs ih =>
    obtain ⟨⟨p, hp⟩, hpattern⟩ := List.forall_mem_cons.mp hpattern
    have hsearch : h.search expected = .ok (p.search expected) := by rw [search, hp]
    rw [findFrom, hsearch]
    cases p.search expected with
    | none => exact ih hpattern (index + 1)
    | some m => exact ⟨_, rfl⟩

theorem exists_anyFinds (hpattern : ∀ h ∈ hs, ∃ p, h.matcher = .pattern p) (expected : Text) :
    ∃ answer, anyFinds hs expected = .ok answer := by
  obtain ⟨found, hfind⟩ := exists_findFrom hpattern 0
  exact ⟨found.isSome, Except.bind_eq_ok_iff.mpr ⟨found, hfind, rfl⟩⟩

end DocModel.Handler
