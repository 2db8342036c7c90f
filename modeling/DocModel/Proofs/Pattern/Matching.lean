import DocModel.Pattern.Basic

/-!
# Which texts a pattern matches

`Regex.run` tries the ways in which a pattern can match in a fixed order, and it stops repeating at
a place where it has been. Here the order is forgotten: `Regex.Matches r c d` says that some way of
matching `r` leads from the place `c` to the place `d`. What `run` finds is such a way
(`Regex.run_eq_some`), and `run` finds one if there is one (`Regex.isSome_run`), as long as each
round of a repetition takes a character (`Regex.Exhaustive`).

The second half reads the relation off for the parts of which most patterns are made: given
characters, and runs of characters of one class.
-/

namespace DocModel

namespace Regex

/-! ## The ways of matching -/

/-- The places to which a number of rounds leads. -/
def Chain (round : Cursor → Cursor → Prop) : Nat → Cursor → Cursor → Prop
  | 0, c, d => d = c
  | n + 1, c, e => ∃ d, round c d ∧ Chain round n d e

/-- **Some way of matching a pattern leads from one place to the other.** -/
def Matches : Regex → Cursor → Cursor → Prop
  | empty, c, d => d = c
  | set inverted fold classes, c, d =>
    ∃ x rest, c.rest = x :: rest ∧ (classes.any (·.has fold x) != inverted) = true ∧
      d = { c with position := c.position + 1, previous := some x, rest }
  | start, c, d => c.position = 0 ∧ d = c
  | stop, c, d => (c.rest = [] ∨ c.rest = ['\n']) ∧ d = c
  | boundary inverted, c, d => (!c.inEmptyText && c.atBoundary != inverted) = true ∧ d = c
  | seq first second, c, e => ∃ d, first.Matches c d ∧ second.Matches d e
  | alt first second, c, d => first.Matches c d ∨ second.Matches c d
  | group number inner, c, e =>
    ∃ d, inner.Matches c d ∧
      e = { d with groups := (number, c.rest.take (d.position - c.position)) :: d.groups }
  | iterate least most _ inner, c, d =>
    ∃ n, least ≤ n ∧ (∀ m ∈ most, n ≤ max least m) ∧ Chain inner.Matches n c d

/-! ## What is found is a match -/

/-- The rounds that a repetition finds lead to a place where the rest succeeds. -/
theorem rounds_eq_some {α : Type} {step : (Cursor → Option α) → Cursor → Option α}
    {round : Cursor → Cursor → Prop}
    (hstep : ∀ k c x, step k c = some x → ∃ d, round c d ∧ k d = some x)
    {least : Nat} {most : Option Nat} {greedy : Bool} {k : Cursor → Option α} {n done : Nat}
    {before : Option Nat} {c : Cursor} {x : α} (hleast : least ≤ done + n)
    (hmost : ∀ m ∈ most, done ≤ max least m)
    (h : rounds step least most greedy k n done before c = some x) :
    ∃ j d, least ≤ done + j ∧ (∀ m ∈ most, done + j ≤ max least m) ∧ Chain round j c d ∧
      k d = some x := by
  induction n generalizing done before c with
  | zero => exact ⟨0, c, hleast, hmost, rfl, h⟩
  | succ n ih =>
    have hmore (next : Option Nat) (hbound : ∀ m ∈ most, done + 1 ≤ max least m)
        (hround : step (rounds step least most greedy k n (done + 1) next) c = some x) :
        ∃ j d, least ≤ done + j ∧ (∀ m ∈ most, done + j ≤ max least m) ∧ Chain round j c d ∧
          k d = some x := by
      obtain ⟨e, hce, he⟩ := hstep _ _ _ hround
      obtain ⟨j, d, hj, hjmost, hchain, hd⟩ := ih (by omega) hbound he
      refine ⟨j + 1, d, by omega, fun m hm => ?_, ⟨e, hce, hchain⟩, hd⟩
      have := hjmost m hm
      omega
    rw [rounds] at h
    by_cases hdone : done < least
    · rw [if_pos hdone] at h
      exact hmore before (fun m _ => by omega) h
    · rw [if_neg hdone] at h
      have hoptional : (if most.all (done < ·) && before != some c.position then
            step (rounds step least most greedy k n (done + 1) (some c.position)) c
          else none) = some x ∨ k c = some x := by
        cases greedy
        · rw [if_neg Bool.false_ne_true, Option.or_eq_some_iff] at h
          exact h.elim Or.inr fun h => Or.inl h.2
        · rw [if_pos rfl, Option.or_eq_some_iff] at h
          exact h.elim Or.inl fun h => Or.inr h.2
      obtain h | h := hoptional
      · split at h
        · next hgo =>
          rw [Bool.and_eq_true, Option.all_eq_true] at hgo
          refine hmore _ (fun m hm => ?_) h
          have := of_decide_eq_true (hgo.1 m hm)
          omega
        · cases h
      · exact ⟨0, c, by omega, hmost, rfl, h⟩

/-- **What a pattern finds is a match**, after which the rest succeeds. -/
theorem run_eq_some {α : Type} {r : Regex} {k : Cursor → Option α} {c : Cursor} {x : α}
    (h : r.run k c = some x) : ∃ d, r.Matches c d ∧ k d = some x := by
  induction r generalizing α k c x with
  | empty => exact ⟨c, rfl, h⟩
  | set inverted fold classes =>
    rw [run] at h
    split at h
    · cases h
    · next y rest hrest =>
      split at h
      · next hy => exact ⟨_, ⟨y, rest, hrest, hy, rfl⟩, h⟩
      · cases h
  | start | stop | boundary inverted =>
    rw [run] at h
    split at h
    · next hplace => exact ⟨c, ⟨hplace, rfl⟩, h⟩
    · cases h
  | seq first second ihfirst ihsecond =>
    obtain ⟨d, hcd, hd⟩ := ihfirst h
    obtain ⟨e, hde, he⟩ := ihsecond hd
    exact ⟨e, ⟨d, hcd, hde⟩, he⟩
  | alt first second ihfirst ihsecond =>
    rw [run, Option.or_eq_some_iff] at h
    obtain h | ⟨-, h⟩ := h
    · obtain ⟨d, hcd, hd⟩ := ihfirst h
      exact ⟨d, Or.inl hcd, hd⟩
    · obtain ⟨d, hcd, hd⟩ := ihsecond h
      exact ⟨d, Or.inr hcd, hd⟩
  | group number inner ih =>
    obtain ⟨d, hcd, hd⟩ := ih h
    exact ⟨_, ⟨d, hcd, rfl⟩, hd⟩
  | iterate least most greedy inner ih =>
    have hstep (k : Cursor → Option α) (c : Cursor) (x : α) (h : inner.run k c = some x) :
        ∃ d, inner.Matches c d ∧ k d = some x := ih h
    obtain ⟨n, d, hleast, hmost, hchain, hd⟩ :=
      rounds_eq_some hstep (by omega) (fun m _ => by omega) h
    refine ⟨d, ⟨n, by omega, fun m hm => ?_, hchain⟩, hd⟩
    have := hmost m hm
    omega

/-! ## A match is found -/

/-- Every match takes at least one character. -/
def Consumes (r : Regex) : Prop := ∀ c d, r.Matches c d → c.position < d.position

/-- **All ways of matching the pattern are tried**, because rounds take characters: one that takes
none is not followed by another. -/
def Exhaustive : Regex → Prop
  | seq first second | alt first second => first.Exhaustive ∧ second.Exhaustive
  | group _ inner => inner.Exhaustive
  | iterate _ _ _ inner => inner.Exhaustive ∧ inner.Consumes
  | empty | set .. | start | stop | boundary _ => True

/-- One place is reached from the other by taking a piece of the text. -/
def Cursor.Reaches (c d : Cursor) : Prop :=
  ∃ t, c.rest = t ++ d.rest ∧ d.position = c.position + t.length

theorem Cursor.Reaches.refl (c : Cursor) : c.Reaches c := ⟨[], rfl, rfl⟩

theorem Cursor.Reaches.trans {c d e : Cursor} (hcd : c.Reaches d) (hde : d.Reaches e) :
    c.Reaches e := by
  obtain ⟨t, ht, hd⟩ := hcd
  obtain ⟨u, hu, he⟩ := hde
  refine ⟨t ++ u, by rw [ht, hu, List.append_assoc], ?_⟩
  rw [he, hd, List.length_append, Nat.add_assoc]

theorem Chain.reaches {round : Cursor → Cursor → Prop}
    (hround : ∀ c d, round c d → c.Reaches d) {n : Nat} {c d : Cursor}
    (h : Chain round n c d) : c.Reaches d := by
  induction n generalizing c with
  | zero =>
    rw [h]
    exact .refl c
  | succ n ih =>
    obtain ⟨e, hce, hchain⟩ := h
    exact (hround c e hce).trans (ih hchain)

/-- **A match takes a piece of the text.** -/
theorem Matches.reaches {r : Regex} {c d : Cursor} (h : r.Matches c d) : c.Reaches d := by
  induction r generalizing c d with
  | empty =>
    rw [h]
    exact .refl c
  | set inverted fold classes =>
    obtain ⟨x, rest, hrest, -, rfl⟩ := h
    exact ⟨[x], hrest, rfl⟩
  | start | stop | boundary inverted =>
    rw [h.2]
    exact .refl c
  | seq first second ihfirst ihsecond =>
    obtain ⟨e, hce, hed⟩ := h
    exact (ihfirst hce).trans (ihsecond hed)
  | alt first second ihfirst ihsecond => exact h.elim ihfirst ihsecond
  | group number inner ih =>
    obtain ⟨e, hce, rfl⟩ := h
    obtain ⟨t, ht⟩ := ih hce
    exact ⟨t, ht⟩
  | iterate least most greedy inner ih =>
    obtain ⟨n, -, -, hchain⟩ := h
    exact hchain.reaches fun _ _ => ih

/-- What follows a part that takes characters only takes more of them. -/
theorem Consumes.seq {first : Regex} (h : first.Consumes) (second : Regex) :
    (seq first second).Consumes := by
  rintro c e ⟨d, hcd, hde⟩
  have hfirst := h c d hcd
  obtain ⟨t, -, hposition⟩ := hde.reaches
  omega

theorem Chain.add_le_position {round : Cursor → Cursor → Prop}
    (hround : ∀ c d, round c d → c.position < d.position) {n : Nat} {c d : Cursor}
    (h : Chain round n c d) : c.position + n ≤ d.position := by
  induction n generalizing c with
  | zero =>
    rw [h]
    exact Nat.le_refl _
  | succ n ih =>
    obtain ⟨e, hce, hchain⟩ := h
    have := hround c e hce
    have := ih hchain
    omega

/-- Rounds that take characters are found: no round starts where the one before it did. -/
theorem isSome_rounds {α : Type} {step : (Cursor → Option α) → Cursor → Option α}
    {round : Cursor → Cursor → Prop}
    (hstep : ∀ k c d, round c d → (k d).isSome → (step k c).isSome)
    (hround : ∀ c d, round c d → c.position < d.position)
    {least : Nat} {most : Option Nat} (greedy : Bool) {k : Cursor → Option α}
    {n j done : Nat} {before : Option Nat} {c d : Cursor} (hleast : least ≤ done + j)
    (hmost : ∀ m ∈ most, done + j ≤ max least m) (hn : j ≤ n)
    (hbefore : ∀ p ∈ before, p < c.position) (h : Chain round j c d) (hk : (k d).isSome) :
    (rounds step least most greedy k n done before c).isSome := by
  induction n generalizing j done before c with
  | zero =>
    obtain rfl : j = 0 := by omega
    rwa [h] at hk
  | succ n ih =>
    rw [rounds]
    cases j with
    | zero =>
      rw [if_neg (by omega : ¬ done < least)]
      cases h
      cases greedy <;> simp [hk]
    | succ j =>
      obtain ⟨e, hce, hchain⟩ := h
      have hlt : c.position < e.position := hround c e hce
      have hnext (next : Option Nat) (hstart : ∀ p ∈ next, p < e.position) :
          (step (rounds step least most greedy k n (done + 1) next) c).isSome :=
        hstep _ c e hce (ih (by omega)
          (fun m hm => by have := hmost m hm; omega) (by omega) hstart hchain)
      by_cases hdone : done < least
      · rw [if_pos hdone]
        exact hnext before fun p hp => Nat.lt_trans (hbefore p hp) hlt
      · rw [if_neg hdone]
        have hgo : (most.all (done < ·) && before != some c.position) = true := by
          rw [Bool.and_eq_true, Option.all_eq_true, bne_iff_ne]
          refine ⟨fun m hm => decide_eq_true ?_, fun hsame => ?_⟩
          · have := hmost m hm
            omega
          · exact Nat.lt_irrefl _ (hbefore _ hsame)
        have hmore := hnext (some c.position) fun p hp => by
          rw [← Option.some.inj hp]
          exact hlt
        cases greedy <;> simp [hgo, hmore]

/-- **A match is found** if all ways are tried. -/
theorem isSome_run {α : Type} {r : Regex} (hr : r.Exhaustive) {k : Cursor → Option α}
    {c d : Cursor} (h : r.Matches c d) (hk : (k d).isSome) : (r.run k c).isSome := by
  induction r generalizing k c d with
  | empty =>
    rw [h] at hk
    exact hk
  | set inverted fold classes =>
    obtain ⟨x, rest, hrest, hx, rfl⟩ := h
    simp only [run, hrest]
    rwa [if_pos hx]
  | start | stop | boundary inverted =>
    obtain ⟨hplace, rfl⟩ := h
    rw [run]
    rwa [if_pos hplace]
  | seq first second ihfirst ihsecond =>
    obtain ⟨e, hce, hed⟩ := h
    exact ihfirst hr.1 hce (ihsecond hr.2 hed hk)
  | alt first second ihfirst ihsecond =>
    rw [run, Option.isSome_or, Bool.or_eq_true]
    exact h.imp (fun h => ihfirst hr.1 h hk) fun h => ihsecond hr.2 h hk
  | group number inner ih =>
    obtain ⟨e, hce, rfl⟩ := h
    exact ih hr hce hk
  | iterate least most greedy inner ih =>
    obtain ⟨n, hleast, hmost, hchain⟩ := h
    -- There are no more rounds than characters, so the bound on the rounds is never met.
    obtain ⟨t, htaken, hposition⟩ := hchain.reaches fun _ _ => Matches.reaches
    have hcount : c.position + n ≤ d.position := hchain.add_le_position hr.2
    have hlength : c.rest.length = t.length + d.rest.length := by
      rw [htaken, List.length_append]
    have hstep (k : Cursor → Option α) (c d : Cursor) (h : inner.Matches c d)
        (hk : (k d).isSome) : (inner.run k c).isSome := ih hr.1 h hk
    show (rounds inner.run least most greedy k (least + c.rest.length + 2) 0 none c).isSome
    refine isSome_rounds hstep hr.2 greedy (by omega) (fun m hm => ?_) (by omega)
      (fun p hp => by cases hp) hchain hk
    rw [Nat.zero_add]
    exact hmost m hm

/-! ## Patterns at the start of a text -/

/-- A pattern for the start of a text is found nowhere else. -/
theorem searchFrom_start_succ (r : Regex) (position : Nat) (previous : Option Char) (t : Text) :
    (seq start r).searchFrom (position + 1) previous t = none := by
  induction t generalizing position previous with
  | nil => rfl
  | cons x rest ih => exact ih (position + 1) (some x)

/-- The place at the start of a text. -/
def Cursor.atStart (text : Text) : Cursor := ⟨0, none, text, []⟩

theorem searchFrom_start (r : Regex) (text : Text) :
    (seq start r).searchFrom 0 none text
      = (r.run some (Cursor.atStart text)).map ((text, ·)) := by
  cases text with
  | nil => rfl
  | cons x rest =>
    have hrun : (seq start r).run some ⟨0, none, x :: rest, []⟩
        = r.run some (Cursor.atStart (x :: rest)) := rfl
    rw [searchFrom, hrun, searchFrom_start_succ]
    cases r.run some (Cursor.atStart (x :: rest)) <;> rfl

/-! ## What a part takes -/

/-- The place after a piece of text. -/
def Cursor.after (c : Cursor) (taken rest : Text) : Cursor :=
  ⟨c.position + taken.length, taken.foldl (fun _ x => some x) c.previous, rest, c.groups⟩

theorem Cursor.after_after (c : Cursor) (t u rest rest' : Text) :
    (c.after t rest').after u rest = c.after (t ++ u) rest := by
  simp [after, Nat.add_assoc]

/-- A place with one more group. -/
def Cursor.remember (c : Cursor) (number : Nat) (t : Text) : Cursor :=
  { c with groups := (number, t) :: c.groups }

/-- **A part of a pattern takes some texts before some others**, wherever it is matched, and
remembers nothing. -/
def Takes (r : Regex) (p : Text → Text → Prop) : Prop :=
  ∀ c d, r.Matches c d ↔ ∃ t rest, c.rest = t ++ rest ∧ p t rest ∧ d = c.after t rest

namespace Takes

variable {r s : Regex} {p q : Text → Text → Prop}

theorem congr (h : r.Takes p) (hpq : ∀ t rest, p t rest ↔ q t rest) : r.Takes q := by
  have heq : p = q := funext fun t => funext fun rest => propext (hpq t rest)
  exact heq ▸ h

theorem consumes (h : r.Takes p) (hp : ∀ t rest, p t rest → t ≠ []) : r.Consumes := by
  intro c d hcd
  obtain ⟨t, rest, -, ht, rfl⟩ := (h c d).mp hcd
  show c.position < c.position + t.length
  have := List.length_pos_iff.mpr (hp t rest ht)
  omega

theorem matches_seq_iff (h : r.Takes p) {c e : Cursor} : (Regex.seq r s).Matches c e ↔
    ∃ t rest, c.rest = t ++ rest ∧ p t rest ∧ s.Matches (c.after t rest) e := by
  constructor
  · rintro ⟨d, hcd, hde⟩
    obtain ⟨t, rest, hrest, ht, rfl⟩ := (h c d).mp hcd
    exact ⟨t, rest, hrest, ht, hde⟩
  · rintro ⟨t, rest, hrest, ht, hde⟩
    exact ⟨c.after t rest, (h c _).mpr ⟨t, rest, hrest, ht, rfl⟩, hde⟩

theorem seq (hr : r.Takes p) (hs : s.Takes q) :
    (Regex.seq r s).Takes fun t rest => ∃ u v, t = u ++ v ∧ p u (v ++ rest) ∧ q v rest := by
  intro c e
  rw [hr.matches_seq_iff]
  constructor
  · rintro ⟨u, rest', hrest', hu, hde⟩
    obtain ⟨v, rest, hrest, hv, rfl⟩ := (hs _ e).mp hde
    obtain rfl : rest' = v ++ rest := hrest
    exact ⟨u ++ v, rest, by rw [hrest', List.append_assoc], ⟨u, v, rfl, hu, hv⟩,
      Cursor.after_after c u v rest _⟩
  · rintro ⟨t, rest, hrest, ⟨u, v, rfl, hu, hv⟩, rfl⟩
    refine ⟨u, v ++ rest, by rw [hrest, List.append_assoc], hu, (hs _ _).mpr ?_⟩
    exact ⟨v, rest, rfl, hv, (Cursor.after_after c u v rest _).symm⟩

/-- A part that may be missing. -/
theorem optional (h : r.Takes p) (greedy : Bool) :
    (iterate 0 (some 1) greedy r).Takes fun t rest => t = [] ∨ p t rest := by
  intro c d
  constructor
  · rintro ⟨n, -, hmost, hchain⟩
    have hn : n ≤ 1 := hmost 1 rfl
    match n, hchain with
    | 0, hchain => exact ⟨[], c.rest, rfl, Or.inl rfl, hchain⟩
    | 1, ⟨e, hce, hed⟩ =>
      obtain ⟨t, rest, hrest, ht, rfl⟩ := (h c e).mp hce
      exact ⟨t, rest, hrest, Or.inr ht, hed⟩
  · rintro ⟨t, rest, hrest, rfl | ht, rfl⟩
    · rw [List.nil_append] at hrest
      refine ⟨0, Nat.le_refl 0, fun m _ => Nat.zero_le _, ?_⟩
      rw [← hrest]
      rfl
    · refine ⟨1, Nat.zero_le 1, fun m hm => ?_, _, (h c _).mpr ⟨t, rest, hrest, ht, rfl⟩, rfl⟩
      rw [← Option.some.inj hm]
      exact Nat.le_refl 1

/-- A group remembers what its inner part takes. -/
theorem matches_group_seq_iff (h : r.Takes p) {number : Nat} {c e : Cursor} :
    (Regex.seq (group number r) s).Matches c e ↔
      ∃ t rest, c.rest = t ++ rest ∧ p t rest ∧
        s.Matches ((c.after t rest).remember number t) e := by
  have htake (t rest : Text) (hrest : c.rest = t ++ rest) :
      c.rest.take ((c.after t rest).position - c.position) = t := by
    show c.rest.take (c.position + t.length - c.position) = t
    rw [hrest, Nat.add_sub_cancel_left, List.take_left]
  constructor
  · rintro ⟨_, ⟨d, hcd, rfl⟩, hde⟩
    obtain ⟨t, rest, hrest, ht, rfl⟩ := (h c d).mp hcd
    rw [htake t rest hrest] at hde
    exact ⟨t, rest, hrest, ht, hde⟩
  · rintro ⟨t, rest, hrest, ht, hde⟩
    refine ⟨_, ⟨c.after t rest, (h c _).mpr ⟨t, rest, hrest, ht, rfl⟩, rfl⟩, ?_⟩
    rw [htake t rest hrest]
    exact hde

end Takes

theorem takes_stop : stop.Takes fun t rest => t = [] ∧ (rest = [] ∨ rest = ['\n']) := by
  intro c d
  constructor
  · rintro ⟨hend, rfl⟩
    exact ⟨[], d.rest, rfl, ⟨rfl, hend⟩, rfl⟩
  · rintro ⟨t, rest, hrest, ⟨rfl, hend⟩, rfl⟩
    rw [List.nil_append] at hrest
    rw [← hrest] at hend ⊢
    exact ⟨hend, rfl⟩

/-! ## Characters, texts and runs -/

/-- The characters that a set accepts. -/
def accepts (inverted fold : Bool) (classes : List CharClass) (x : Char) : Bool :=
  classes.any (·.has fold x) != inverted

section Sets

variable {inverted fold : Bool} {classes : List CharClass} {c d : Cursor}

theorem takes_set : (set inverted fold classes).Takes
    fun t _ => ∃ x, t = [x] ∧ accepts inverted fold classes x = true := by
  intro c d
  constructor
  · rintro ⟨x, rest, hrest, hx, rfl⟩
    exact ⟨[x], rest, hrest, ⟨x, rfl, hx⟩, rfl⟩
  · rintro ⟨t, rest, hrest, ⟨x, rfl, hx⟩, rfl⟩
    exact ⟨x, rest, hrest, hx, rfl⟩

theorem consumes_set : (set inverted fold classes).Consumes := by
  refine takes_set.consumes ?_
  rintro t rest ⟨x, rfl, -⟩
  exact List.cons_ne_nil x []

theorem chain_set_iff {n : Nat} : Chain (set inverted fold classes).Matches n c d ↔
    ∃ t rest, c.rest = t ++ rest ∧ t.length = n ∧
      (∀ x ∈ t, accepts inverted fold classes x = true) ∧ d = c.after t rest := by
  induction n generalizing c with
  | zero =>
    constructor
    · rintro rfl
      exact ⟨[], d.rest, rfl, rfl, by simp, rfl⟩
    · rintro ⟨t, rest, hrest, ht, -, rfl⟩
      obtain rfl := List.length_eq_zero_iff.mp ht
      rw [List.nil_append] at hrest
      rw [← hrest]
      rfl
  | succ n ih =>
    constructor
    · rintro ⟨e, ⟨x, rest', hrest', hx, rfl⟩, hchain⟩
      obtain ⟨t, rest, hrest, rfl, ht, rfl⟩ := ih.mp hchain
      obtain rfl : rest' = t ++ rest := hrest
      exact ⟨x :: t, rest, hrest', rfl, List.forall_mem_cons.mpr ⟨hx, ht⟩,
        Cursor.after_after c [x] t rest _⟩
    · rintro ⟨t, rest, hrest, ht, hall, rfl⟩
      cases t with
      | nil => cases ht
      | cons x t =>
        obtain ⟨hx, hall⟩ := List.forall_mem_cons.mp hall
        refine ⟨c.after [x] (t ++ rest), ⟨x, t ++ rest, hrest, hx, rfl⟩, ih.mpr ?_⟩
        exact ⟨t, rest, rfl, Nat.succ.inj ht, hall, (Cursor.after_after c [x] t rest _).symm⟩

/-- **A repeated set takes runs of its characters.** -/
theorem takes_run (least : Nat) (greedy : Bool) :
    (iterate least none greedy (set inverted fold classes)).Takes
      fun t _ => least ≤ t.length ∧ ∀ x ∈ t, accepts inverted fold classes x = true := by
  intro c d
  constructor
  · rintro ⟨n, hleast, -, hchain⟩
    obtain ⟨t, rest, hrest, rfl, ht, hd⟩ := chain_set_iff.mp hchain
    exact ⟨t, rest, hrest, ⟨hleast, ht⟩, hd⟩
  · rintro ⟨t, rest, hrest, ⟨hleast, ht⟩, hd⟩
    exact ⟨t.length, hleast, fun m hm => (by cases hm),
      chain_set_iff.mpr ⟨t, rest, hrest, rfl, ht, hd⟩⟩

theorem exhaustive_run (least : Nat) (most : Option Nat) (greedy : Bool) :
    (iterate least most greedy (set inverted fold classes)).Exhaustive :=
  ⟨trivial, consumes_set⟩

end Sets

theorem accepts_char {x y : Char} : accepts false false [.range x x] y = true ↔ y = x := by
  have hval : x.toNat ≤ y.toNat ∧ y.toNat ≤ x.toNat ↔ y = x := by
    rw [← Char.toNat_inj]
    omega
  simp [accepts, CharClass.has, hval]

theorem takes_char (x : Char) : (char false x).Takes fun t _ => t = [x] := by
  intro c d
  constructor
  · rintro ⟨y, rest, hrest, hy, rfl⟩
    obtain rfl := accepts_char.mp hy
    exact ⟨[y], rest, hrest, rfl, rfl⟩
  · rintro ⟨t, rest, hrest, rfl, rfl⟩
    exact ⟨x, rest, hrest, accepts_char.mpr rfl, rfl⟩

/-- A text that has to stand where the pattern is matched, in front of another pattern. -/
def literal : Text → Regex → Regex
  | [], r => r
  | x :: t, r => seq (char false x) (literal t r)

/-- **A given text in front of a pattern.** -/
theorem matches_literal_iff {t : Text} {r : Regex} {c d : Cursor} :
    (literal t r).Matches c d ↔ ∃ rest, c.rest = t ++ rest ∧ r.Matches (c.after t rest) d := by
  induction t generalizing c with
  | nil =>
    constructor
    · intro h
      exact ⟨c.rest, rfl, h⟩
    · rintro ⟨rest, hrest, h⟩
      rw [List.nil_append] at hrest
      rw [← hrest] at h
      exact h
  | cons x t ih =>
    rw [literal, (takes_char x).matches_seq_iff]
    constructor
    · rintro ⟨_, rest', hrest', rfl, h⟩
      obtain ⟨rest, hrest, h⟩ := ih.mp h
      obtain rfl : rest' = t ++ rest := hrest
      rw [Cursor.after_after] at h
      exact ⟨rest, hrest', h⟩
    · rintro ⟨rest, hrest, h⟩
      refine ⟨[x], t ++ rest, hrest, rfl, ih.mpr ⟨rest, rfl, ?_⟩⟩
      rw [Cursor.after_after]
      exact h

theorem Takes.literal {r : Regex} {p : Text → Text → Prop} (h : r.Takes p) (t : Text) :
    (literal t r).Takes fun u rest => ∃ v, u = t ++ v ∧ p v rest := by
  intro c d
  rw [matches_literal_iff]
  constructor
  · rintro ⟨rest', hrest', hd⟩
    obtain ⟨v, rest, hrest, hv, rfl⟩ := (h _ d).mp hd
    obtain rfl : rest' = v ++ rest := hrest
    exact ⟨t ++ v, rest, by rw [hrest', List.append_assoc], ⟨v, rfl, hv⟩,
      Cursor.after_after c t v rest _⟩
  · rintro ⟨u, rest, hrest, ⟨v, rfl, hv⟩, rfl⟩
    refine ⟨v ++ rest, by rw [hrest, List.append_assoc], (h _ _).mpr ?_⟩
    exact ⟨v, rest, rfl, hv, (Cursor.after_after c t v rest _).symm⟩

theorem exhaustive_literal {r : Regex} (h : r.Exhaustive) (t : Text) :
    (literal t r).Exhaustive := by
  induction t with
  | nil => exact h
  | cons x t ih => exact ⟨trivial, ih⟩

end Regex

/-! ## Searching from the start of a text -/

namespace Pattern

variable {p : Pattern} {r : Regex} (hp : p.regex = .seq .start r) {text : Text}
include hp

theorem search_of_start : p.search text = (r.run some (.atStart text)).map fun c =>
    { whole := text.take (text.length - c.rest.length)
      groups := (List.range p.groupCount).map fun i => c.groups.lookup (i + 1) } := by
  rw [search, hp, Regex.searchFrom_start, Option.map_map]
  rfl

theorem search_eq_some {m : Match} (h : p.search text = some m) :
    ∃ e, r.Matches (.atStart text) e ∧
      m.groups = (List.range p.groupCount).map fun i => e.groups.lookup (i + 1) := by
  rw [search_of_start hp] at h
  obtain ⟨c, hrun, rfl⟩ := Option.map_eq_some_iff.mp h
  obtain ⟨e, hmatch, he⟩ := Regex.run_eq_some hrun
  cases he
  exact ⟨c, hmatch, rfl⟩

theorem search_eq_none (h : ∀ e, ¬ r.Matches (.atStart text) e) : p.search text = none := by
  refine Option.eq_none_iff_forall_ne_some.mpr fun m hm => ?_
  obtain ⟨e, he, -⟩ := search_eq_some hp hm
  exact h e he

theorem isSome_search (hr : r.Exhaustive) {e : Regex.Cursor} (h : r.Matches (.atStart text) e) :
    (p.search text).isSome := by
  rw [search_of_start hp, Option.isSome_map]
  exact Regex.isSome_run hr h rfl

end Pattern

end DocModel
