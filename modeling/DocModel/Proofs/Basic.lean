import DocModel.Text.Basic

/-!
# Facts that many proofs share

A computation that may fail is opened from its result: if it succeeds, each of its steps did.
What is said of each member of a given list is checked member by member. A table is opened by its
look-ups. And a text is opened from its start, at a divider, or at each of its separators.
-/

/-- **A computation in two steps succeeds when both steps do.** -/
theorem Except.bind_eq_ok_iff {ε α β : Type} {x : Except ε α} {f : α → Except ε β} {b : β} :
    (x >>= f) = .ok b ↔ ∃ a, x = .ok a ∧ f a = .ok b := by
  cases x <;> simp [bind, Except.bind]

/-- What is said of each member of a list can be evaluated on the list. -/
theorem List.forall_mem_of_all {α : Type} {p : α → Prop} [DecidablePred p] {l : List α}
    (h : (l.all fun a => decide (p a)) = true) : ∀ a ∈ l, p a :=
  fun a ha => of_decide_eq_true (List.all_eq_true.mp h a ha)

/-- What a look-up finds is an entry of the table. -/
theorem List.mem_of_lookup_eq_some {α β : Type} [BEq α] [LawfulBEq α] {l : List (α × β)} {a : α}
    {b : β} (h : l.lookup a = some b) : (a, b) ∈ l := by
  obtain ⟨before, after, hentries, -⟩ := List.lookup_eq_some_iff.mp h
  rw [hentries]
  exact List.mem_append_right before List.mem_cons_self

/-- In a table in which each key stands once, a look-up finds every entry. -/
theorem List.lookup_eq_some_iff_mem {α β : Type} [BEq α] [LawfulBEq α] {l : List (α × β)}
    (h : (l.map Prod.fst).Nodup) {a : α} {b : β} : l.lookup a = some b ↔ (a, b) ∈ l := by
  induction l with
  | nil => simp
  | cons entry l ih =>
    obtain ⟨k, v⟩ := entry
    obtain ⟨hk, hl⟩ := List.nodup_cons.mp h
    rw [List.lookup_cons, List.mem_cons, Prod.mk.injEq]
    by_cases hak : a = k
    · subst hak
      have hmem : (a, b) ∉ l := fun hb => hk (List.mem_map.mpr ⟨(a, b), hb, rfl⟩)
      simp [hmem, eq_comm]
    · rw [beq_eq_false_iff_ne.mpr hak]
      simp [hak, ih hl]

namespace DocModel.Text

/-- What stands after a given start of a text. -/
theorem isPrefixOf?_eq_some_iff {start t rest : Text} :
    start.isPrefixOf? t = some rest ↔ t = start ++ rest := by
  induction start generalizing t with
  | nil => exact ⟨fun h => Option.some.inj h, fun h => congrArg some h⟩
  | cons c start ih =>
    cases t with
    | nil => constructor <;> intro h <;> cases h
    | cons d t =>
      have hstep : (c :: start).isPrefixOf? (d :: t)
          = if c == d then start.isPrefixOf? t else none := rfl
      rw [hstep, List.cons_append, List.cons.injEq]
      by_cases hcd : c = d
      · rw [if_pos (beq_iff_eq.mpr hcd), ih]
        exact ⟨fun h => ⟨hcd.symm, h⟩, fun h => h.2⟩
      · rw [if_neg (mt beq_iff_eq.mp hcd)]
        exact ⟨(fun h => by cases h), fun h => absurd h.1.symm hcd⟩

/-- Cutting a text loses nothing but the divider. -/
theorem cut?_eq_some {divider t before after : Text} (h : cut? divider t = some (before, after)) :
    t = before ++ divider ++ after := by
  induction t generalizing before with
  | nil =>
    rw [cut?] at h
    split at h
    · next hempty =>
      cases h
      rw [List.isEmpty_iff.mp hempty]
      rfl
    · cases h
  | cons c t ih =>
    rw [cut?] at h
    split at h
    · next hprefix =>
      cases h
      exact isPrefixOf?_eq_some_iff.mp hprefix
    · obtain ⟨⟨start, rest⟩, hcut, heq⟩ := Option.map_eq_some_iff.mp h
      cases heq
      rw [ih hcut]
      rfl

/-- Where a divider stands, a text can be cut, and not further to the right. -/
theorem exists_cut? (divider before after : Text) :
    ∃ start rest, cut? divider (before ++ divider ++ after) = some (start, rest) ∧
      start.length ≤ before.length := by
  induction before with
  | nil =>
    have hstart : divider.isPrefixOf? (divider ++ after) = some after :=
      isPrefixOf?_eq_some_iff.mpr rfl
    rw [List.nil_append]
    cases htext : divider ++ after with
    | nil =>
      rw [cut?, (List.append_eq_nil_iff.mp htext).1]
      exact ⟨[], [], rfl, Nat.le_refl _⟩
    | cons c t =>
      rw [htext] at hstart
      rw [cut?, hstart]
      exact ⟨[], after, rfl, Nat.le_refl _⟩
  | cons c before ih =>
    obtain ⟨start, rest, hcut, hlength⟩ := ih
    rw [List.cons_append, List.cons_append, cut?]
    split
    · exact ⟨[], _, rfl, Nat.zero_le _⟩
    · rw [hcut]
      exact ⟨c :: start, rest, rfl, Nat.succ_le_succ hlength⟩

/-- A text is cut at the first place where the divider stands. -/
theorem length_le_of_cut? {divider t before after : Text}
    (h : cut? divider t = some (before, after)) (before' after' : Text)
    (ht : t = before' ++ divider ++ after') : before.length ≤ before'.length := by
  obtain ⟨start, rest, hsome, hlength⟩ := exists_cut? divider before' after'
  rw [← ht, h] at hsome
  cases hsome
  exact hlength

/-- A text that cannot be cut has no divider. -/
theorem ne_of_cut?_eq_none {divider t : Text} (h : cut? divider t = none) (before after : Text) :
    t ≠ before ++ divider ++ after := by
  intro ht
  obtain ⟨start, rest, hsome, -⟩ := exists_cut? divider before after
  rw [← ht, h] at hsome
  cases hsome

/-- Whether `u` is the text `t` with only the first `old` replaced by `new`. -/
def ReplacesFirst (old new t u : Text) : Prop :=
  ((∀ before after, t ≠ before ++ old ++ after) ∧ u = t) ∨
    ∃ before after, t = before ++ old ++ after ∧ u = before ++ new ++ after ∧
      ∀ before' after', t = before' ++ old ++ after' → before.length ≤ before'.length

theorem replacesFirst_replaceFirst (old new t : Text) :
    ReplacesFirst old new t (replaceFirst old new t) := by
  rw [replaceFirst]
  cases hcut : cut? old t with
  | none => exact .inl ⟨ne_of_cut?_eq_none hcut, rfl⟩
  | some cut => exact .inr ⟨cut.1, cut.2, cut?_eq_some hcut, rfl, length_le_of_cut? hcut⟩

theorem splitWhere_cons_of_neg {p : Char → Bool} {c : Char} (hc : p c = false) {t piece : Text}
    {pieces : List Text} (h : splitWhere p t = piece :: pieces) :
    splitWhere p (c :: t) = (c :: piece) :: pieces := by
  rw [splitWhere, hc, h]
  rfl

/-- **A text is split at each separator by itself.** -/
theorem splitWhere_append {p : Char → Bool} {c : Char} (hc : p c = true) (t u : Text) :
    splitWhere p (t ++ c :: u) = splitWhere p t ++ splitWhere p u := by
  induction t with
  | nil => exact if_pos hc
  | cons d t ih =>
    by_cases hd : p d = true
    · show splitWhere p (d :: (t ++ c :: u)) = _
      rw [splitWhere, if_pos hd, ih, splitWhere, if_pos hd]
      rfl
    · have hd := Bool.eq_false_iff.mpr hd
      obtain ⟨piece, pieces, ht⟩ := List.exists_cons_of_ne_nil (splitWhere_ne_nil p t)
      rw [ht] at ih
      rw [List.cons_append, splitWhere_cons_of_neg hd ih, splitWhere_cons_of_neg hd ht]
      rfl

theorem splitWhere_of_forall {p : Char → Bool} {t : Text} (h : ∀ c ∈ t, p c = false) :
    splitWhere p t = [t] := by
  induction t with
  | nil => rfl
  | cons c t ih =>
    obtain ⟨hc, ht⟩ := List.forall_mem_cons.mp h
    exact splitWhere_cons_of_neg hc (ih ht)

/-- A text without separators, or the last separator with what stands before and after it. -/
theorem exists_last_separator (p : Char → Bool) (t : Text) :
    (∀ c ∈ t, p c = false) ∨
      ∃ path c last, t = path ++ c :: last ∧ p c = true ∧ ∀ d ∈ last, p d = false := by
  induction t with
  | nil => exact .inl fun c hc => absurd hc List.not_mem_nil
  | cons d t ih =>
    obtain hplain | ⟨path, c, last, rfl, hc, hlast⟩ := ih
    · by_cases hd : p d = true
      · exact .inr ⟨[], d, t, rfl, hd, hplain⟩
      · exact .inl (List.forall_mem_cons.mpr ⟨Bool.eq_false_iff.mpr hd, hplain⟩)
    · exact .inr ⟨d :: path, c, last, rfl, hc, hlast⟩

/-- **Induction along the separators of a text**, from the first to the last. -/
theorem separator_induction {p : Char → Bool} {P : Text → Prop}
    (plain : ∀ t, (∀ c ∈ t, p c = false) → P t)
    (snoc : ∀ path c last, p c = true → (∀ d ∈ last, p d = false) → P path →
      P (path ++ c :: last)) (t : Text) : P t := by
  obtain hplain | ⟨path, c, last, hsplit, hc, hlast⟩ := exists_last_separator p t
  · exact plain t hplain
  · rw [hsplit]
    exact snoc path c last hc hlast (separator_induction plain snoc path)
termination_by t.length
decreasing_by
  rw [hsplit]
  simp

/-- No piece holds a separator. -/
theorem forall_of_mem_splitWhere {p : Char → Bool} {t piece : Text}
    (h : piece ∈ splitWhere p t) : ∀ c ∈ piece, p c = false := by
  induction t using separator_induction (p := p) with
  | plain t ht =>
    rw [splitWhere_of_forall ht, List.mem_singleton] at h
    rwa [h]
  | snoc path c last hc hlast ih =>
    rw [splitWhere_append hc, splitWhere_of_forall hlast, List.mem_append,
      List.mem_singleton] at h
    obtain h | rfl := h
    · exact ih h
    · exact hlast

theorem join_cons {separator t : Text} {ts : List Text} (h : ts ≠ []) :
    join separator (t :: ts) = t ++ separator ++ join separator ts := by
  cases ts with
  | nil => exact absurd rfl h
  | cons u us => rfl

theorem join_append {separator : Text} {ts us : List Text} (hts : ts ≠ []) (hus : us ≠ []) :
    join separator (ts ++ us) = join separator ts ++ separator ++ join separator us := by
  induction ts with
  | nil => exact absurd rfl hts
  | cons t ts ih =>
    cases ts with
    | nil => exact join_cons hus
    | cons t' ts =>
      have htail : join separator (t' :: ts ++ us)
          = join separator (t' :: ts) ++ separator ++ join separator us := ih (by simp)
      have hne : t' :: ts ++ us ≠ [] := by simp
      rw [List.cons_append, join_cons hne, htail, join_cons (List.cons_ne_nil t' ts)]
      simp only [List.append_assoc]

/-- **Pieces that are joined are taken apart again**, if there are any. -/
theorem splitWhere_join {p : Char → Bool} {c : Char} (hc : p c = true) {ts : List Text}
    (hne : ts ≠ []) (hts : ∀ t ∈ ts, ∀ d ∈ t, p d = false) : splitWhere p (join [c] ts) = ts := by
  induction ts with
  | nil => exact absurd rfl hne
  | cons t ts ih =>
    obtain ⟨ht, hrest⟩ := List.forall_mem_cons.mp hts
    by_cases hnil : ts = []
    · subst hnil
      exact splitWhere_of_forall ht
    · rw [join_cons hnil, List.append_assoc, List.singleton_append, splitWhere_append hc,
        splitWhere_of_forall ht, ih hnil hrest, List.singleton_append]

/-- Joined pieces hold nothing but their own characters and those between them. -/
theorem mem_of_mem_join {separator : Text} {ts : List Text} {c : Char}
    (h : c ∈ join separator ts) : c ∈ separator ∨ ∃ t ∈ ts, c ∈ t := by
  induction ts with
  | nil => cases h
  | cons t ts ih =>
    by_cases hnil : ts = []
    · subst hnil
      exact .inr ⟨t, List.mem_cons_self, h⟩
    · rw [join_cons hnil, List.mem_append, List.mem_append] at h
      obtain (ht | hseparator) | hrest := h
      · exact .inr ⟨t, List.mem_cons_self, ht⟩
      · exact .inl hseparator
      · exact (ih hrest).imp_right fun ⟨u, hu, hc⟩ => ⟨u, List.mem_cons_of_mem t hu, hc⟩

end DocModel.Text
