import DocModel.Proofs.Grammar.Completeness
import DocModel.Proofs.Grammar.Lookups

/-!
# The readers of type expressions end

The readers of type expressions are bounded from the outside: types are read down to a depth and
sequences for a number of rounds, both fixed beforehand. Here the same notation is read without
any bound. A procedure has all the tokens and the index of the next one (`Cursor`), it moves the
index forward, and its loops go on until they see the mark that ends them. Whether a token is
a name, it has to ask (`kindOf`), and there may be no answer. The procedures are least fixed points,
where a run that never ends is `none`, and nothing in their definitions says that there is no such
run, that an index stays within the tokens, or that every question is answered.

All of this follows from one comparison (`Cursor.Agrees`): wherever a procedure starts, it ends as
the bounded reader answers on the tokens from there on, and it has taken as many tokens as it takes
at least. Every construct takes a token before it reads its parts and every round of a loop takes
one, so the tokens that are left bound the depth and the rounds from every index on
(`Cursor.Reads`). The kinds of tokens are told by the tokens themselves or, where they are cut from
a text, by their first characters (`Cursor.parse_eq`).
-/

namespace DocModel

open Checked

/-- **The outcome of reading types.** -/
abbrev TypeExpr.Outcome (α : Type) := Checked Problem α

/-- The tokens of a type expression, cut off one by one until only blanks are left. Where no token
can be read, the first character that is left is looked up. -/
def Text.typeTokens (cs : Text) : TypeExpr.Outcome (List TypeExpr.Token) :=
  if (Text.strip cs).isEmpty then return []
  else
    match TypeExpr.Token.read? (Text.stripLeft cs) with
    | none => do
      let c ← lookUp (Text.strip cs) 0
      refuse (.strayChar c)
    | some (token, rest) => do
      let ts ← rest |>.typeTokens
      return token :: ts
partial_fixpoint

namespace TypeExpr

/-- **Where the reading of tokens has come to.** -/
structure Cursor where
  /-- All the tokens. -/
  tokens : List Token
  /-- The index of the token that is next. -/
  index : Nat

namespace Cursor

/-- The token that is next, if there is one. -/
def peek (c : Cursor) : Option Token := c.tokens[c.index]?

/-- The cursor behind the next token, even where there is none. -/
def next (c : Cursor) : Cursor := { c with index := c.index + 1 }

/-! ## The procedures -/

variable (kindOf : Token → Option Token.Kind)

/-- The mark `wanted`, which has to be next. -/
def expect (c : Cursor) (wanted : Char) : Outcome (Unit × Cursor) :=
  if c.peek = some (.mark wanted) then return ((), c.next) else refuse (.missing wanted c.peek)

/-- What stands after an item: a comma, which is taken, or the closing mark, which is left. -/
def afterItem (c : Cursor) (closing : Char) : Outcome (Unit × Cursor) :=
  if c.peek = some (.mark ',') then return ((), c.next)
  else if c.peek = some (.mark closing) then return ((), c)
  else refuse (.unexpected c.peek)

/-- The key of a record field. A literal loses its quotation marks. -/
def fieldKey (c : Cursor) : Outcome (Text × Cursor) :=
  match c.peek with
  | none => refuse .openRecord
  | some key => do
    match ← found (kindOf key) with
    | .literal => return (key.text.tail.dropLast, c.next)
    | .word => return (key.text, c.next)
    | .other => refuse (.unexpected (some key))

/-- All modifiers that follow a type. -/
def modifiers (c : Cursor) (t : TypeExpr) : Outcome (TypeExpr × Cursor) :=
  match c.peek, c.next.peek with
  | some (.mark '='), _ => c.next |>.modifiers (.optional t)
  | some (.mark '?'), _ => c.next |>.modifiers (.nullable t)
  | some (.mark '!'), _ => c.next |>.modifiers t
  | some (.mark '['), some (.mark ']') =>
    c.next.next |>.modifiers (.application (.name "Array") [t])
  | _, _ => return (t, c)
partial_fixpoint

mutual

/-- The procedure for a phrase. -/
def read (c : Cursor) (p : Phrase) : Outcome (p.Meaning × Cursor) :=
  match p with
  | .type => c |>.type
  | .top => c |>.top
  | .basic => c |>.basic
  | .field => c |>.field
  | .param => c |>.param
  | .separated mark item => c |>.separated mark item
  | .list closing item => c |>.list closing item
partial_fixpoint

/-- One item or more with a mark between them. -/
def separated (c : Cursor) (mark : Char) (item : Phrase) :
    Outcome ((item.Meaning × List item.Meaning) × Cursor) := do
  let (a, c) ← c |>.read item
  let (as, c) ← c |>.following mark item
  return ((a, as), c)
partial_fixpoint

/-- Further items, as long as the mark between them is next. -/
def following (c : Cursor) (mark : Char) (item : Phrase) :
    Outcome (List item.Meaning × Cursor) :=
  if c.peek = some (.mark mark) then do
    let (a, c) ← c.next |>.read item
    let (as, c) ← c |>.following mark item
    return (a :: as, c)
  else return ([], c)
partial_fixpoint

/-- Items until the closing mark is next, and that mark. -/
def list (c : Cursor) (closing : Char) (item : Phrase) : Outcome (List item.Meaning × Cursor) :=
  if c.peek = some (.mark closing) then do
    let (_, c) ← c.expect closing
    return ([], c)
  else do
    let (a, c) ← c |>.round closing item
    let (as, c) ← c |>.list closing item
    return (a :: as, c)
partial_fixpoint

/-- One round of the loop over items: an item and what stands after it. -/
def round (c : Cursor) (closing : Char) (item : Phrase) : Outcome (item.Meaning × Cursor) := do
  let (a, c) ← c |>.read item
  let (_, c) ← c.afterItem closing
  return (a, c)
partial_fixpoint

/-- A type, or several with `|` between them. -/
def top (c : Cursor) : Outcome (TypeExpr × Cursor) := do
  let ((t, more), c) ← c |>.separated '|' .type
  return (if more.isEmpty then t else .union (t :: more), c)
partial_fixpoint

/-- A type with its prefixes and modifiers. -/
def type (c : Cursor) : Outcome (TypeExpr × Cursor) :=
  match c.peek with
  | some (.mark '?') =>
    if c.next.peek.all isTerminator then return (.all, c.next)
    else do
      let (t, c) ← c.next |>.type
      return (.nullable t, c)
  | some (.mark '!') => c.next |>.type
  | some .ellipsis =>
    if c.next.peek.all isTerminator then return (.variadic none, c.next)
    else do
      let (t, c) ← c.next |>.type
      return (.variadic (some t), c)
  | _ => do
    let (t, c) ← c |>.basic
    c.modifiers t
partial_fixpoint

/-- A type that modifiers can be added to. What is no mark and no keyword has to be a name. -/
def basic (c : Cursor) : Outcome (TypeExpr × Cursor) :=
  match c.peek with
  | none => refuse .endOfInput
  | some (.mark '*') => return (.all, c.next)
  | some (.mark '(') => c.next |>.union
  | some (.mark '[') => c.next |>.array
  | some (.mark '\x7b') => c.next |>.record
  | some t =>
    if t = .word "function" ∧ c.next.peek = some (.mark '(') then c.next |>.function
    else if t = .word "null" then return (.null, c.next)
    else do
      let kind ← found (kindOf t)
      if kind = .other then refuse (.unexpected (some t))
      else c.next |>.application (.name t.text)
partial_fixpoint

/-- The arguments after the name of a generic type, if there are any. -/
def application (c : Cursor) (base : TypeExpr) : Outcome (TypeExpr × Cursor) :=
  if c.peek = some .opening ∨ c.peek = some (.mark '<') then do
    let ((t, more), c) ← c.next |>.separated ',' .top
    let (_, c) ← c.expect '>'
    return (.application base (t :: more), c)
  else return (base, c)
partial_fixpoint

/-- The members of a union after its opening parenthesis. -/
def union (c : Cursor) : Outcome (TypeExpr × Cursor) := do
  let (members, c) ←
    if c.peek = some (.mark ')') then pure ([], c)
    else do
      let ((t, more), c) ← c |>.separated '|' .type
      pure (t :: more, c)
  let (_, c) ← c.expect ')'
  return (.union members, c)
partial_fixpoint

/-- The elements of an array after its opening bracket. -/
def array (c : Cursor) : Outcome (TypeExpr × Cursor) := do
  let (elements, c) ← c |>.list ']' .top
  return (.array elements, c)
partial_fixpoint

/-- The fields of a record after its opening brace. -/
def record (c : Cursor) : Outcome (TypeExpr × Cursor) := do
  let (fields, c) ← c |>.list '\x7d' .field
  return (.record fields, c)
partial_fixpoint

/-- A field of a record: its key and possibly a type. -/
def field (c : Cursor) : Outcome ((Text × Option TypeExpr) × Cursor) := do
  let (key, c) ← c.fieldKey kindOf
  if c.peek = some (.mark ':') then do
    let (t, c) ← c.next |>.top
    return ((key, some t), c)
  else return ((key, none), c)
partial_fixpoint

/-- A function type after the word `function`. -/
def function (c : Cursor) : Outcome (TypeExpr × Cursor) := do
  let (_, c) ← c.expect '('
  let (params, c) ← c |>.list ')' .param
  let (result, c) ←
    if c.peek = some (.mark ':') then do
      let (t, c) ← c.next |>.type
      pure (some t, c)
    else pure (none, c)
  return (functionOf params result, c)
partial_fixpoint

/-- A parameter; the words `this` and `new` are special only before a colon. -/
def param (c : Cursor) : Outcome (Param × Cursor) :=
  if c.peek = some (.word "this") ∧ c.next.peek = some (.mark ':') then do
    let (t, c) ← c.next.next |>.top
    return (.receiver t, c)
  else if c.peek = some (.word "new") ∧ c.next.peek = some (.mark ':') then do
    let (t, c) ← c.next.next |>.top
    return (.constructed t, c)
  else do
    let (t, c) ← c |>.top
    return (.plain t, c)
partial_fixpoint

end

/-- A type from all of the given tokens. -/
def ofTokens (ts : List Token) : Outcome TypeExpr :=
  if ts.isEmpty then refuse .empty
  else do
    let (t, c) ← (⟨ts, 0⟩ : Cursor).top kindOf
    match c.peek with
    | none => return t
    | some other => refuse (.unexpected (some other))

/-- **The type expression that a text denotes**, read without any bound. -/
def parse (source : Text) : Outcome TypeExpr := source.typeTokens >>= ofTokens kindOf

/-! ## Going forward -/

variable {kindOf} {α β : Type} {c d e : Cursor} {m n : Nat}

/-- The tokens from the next one on. -/
def rest (c : Cursor) : List Token := c.tokens.drop c.index

/-- The number of tokens from the next one on. -/
def left (c : Cursor) : Nat := c.tokens.length - c.index

theorem length_rest (c : Cursor) : c.rest.length = c.left := List.length_drop

theorem head?_rest (c : Cursor) : c.rest.head? = c.peek := List.head?_drop

theorem tail_rest (c : Cursor) : c.rest.tail = c.next.rest := List.tail_drop

theorem rest_of_some {t : Token} (h : c.peek = some t) : c.rest = t :: c.next.rest := by
  rw [← head?_rest] at h
  rw [← tail_rest]
  obtain ⟨us, hus⟩ := List.head?_eq_some_iff.mp h
  rw [hus, List.tail_cons]

theorem rest_of_none (h : c.peek = none) : c.rest = [] := by
  rwa [← head?_rest, List.head?_eq_none_iff] at h

theorem peek_of_rest {t : Token} {us : List Token} (h : c.rest = t :: us) :
    c.peek = some t ∧ c.next.rest = us := by
  rw [← head?_rest, ← tail_rest, h]
  exact ⟨rfl, rfl⟩

theorem peek_of_left (h : c.left = 0) : c.peek = none := by
  rw [← head?_rest, List.eq_nil_of_length_eq_zero (c.length_rest.trans h), List.head?_nil]

/-- Whether a cursor has gone forward to another one, over `least` tokens at least and not beyond
the end. A cursor that is beyond the end from the start stays where it is. -/
structure Advances (least : Nat) (c d : Cursor) : Prop where
  tokens : d.tokens = c.tokens
  taken : c.index + least ≤ d.index
  within : d.index ≤ max c.index c.tokens.length

namespace Advances

theorem refl (c : Cursor) : Advances 0 c c := ⟨rfl, Nat.le_refl _, Nat.le_max_left _ _⟩

theorem trans (h : Advances m c d) (h' : Advances n d e) : Advances (m + n) c e := by
  have h₁ := h.taken
  have h₂ := h.within
  have h₃ := h'.taken
  have h₄ := h'.within
  rw [h.tokens] at h₄
  exact ⟨h'.tokens.trans h.tokens, by omega, by omega⟩

theorem mono (h : Advances m c d) (hn : n ≤ m) : Advances n c d :=
  ⟨h.tokens, Nat.le_trans (Nat.add_le_add_left hn _) h.taken, h.within⟩

theorem next {t : Token} (h : c.peek = some t) : Advances 1 c c.next := by
  obtain ⟨hi, -⟩ := List.getElem?_eq_some_iff.mp h
  exact ⟨rfl, Nat.le_refl _, Nat.le_trans hi (Nat.le_max_right _ _)⟩

/-- As a cursor goes forward, fewer tokens are left. -/
theorem left_le (h : Advances m c d) : d.left + m ≤ c.left := by
  have hm := h.taken
  have hd := h.within
  rw [left, left, h.tokens]
  omega

end Advances

/-- Whether the kinds of all tokens are told as they are, and at most `n` tokens are left. -/
structure Fits (kindOf : Token → Option Token.Kind) (n : Nat) (c : Cursor) : Prop where
  told : ∀ t ∈ c.tokens, kindOf t = some t.kind
  left_le : c.left ≤ n

namespace Fits

variable {t : Token}

theorem later (h : Fits kindOf n c) (hd : Advances m c d) : Fits kindOf n d :=
  ⟨hd.tokens ▸ h.told, Nat.le_trans (Nat.le_of_add_right_le hd.left_le) h.left_le⟩

theorem next (h : Fits kindOf (n + 1) c) (ht : c.peek = some t) : Fits kindOf n c.next :=
  ⟨h.told, Nat.le_of_succ_le_succ (Nat.le_trans (Advances.next ht).left_le h.left_le)⟩

theorem mono (h : Fits kindOf m c) (hn : m ≤ n) : Fits kindOf n c :=
  ⟨h.told, Nat.le_trans h.left_le hn⟩

theorem kindOf_eq (h : Fits kindOf n c) (ht : c.peek = some t) : kindOf t = some t.kind :=
  h.told t (List.mem_of_getElem? ht)

end Fits

/-! ## Runs -/

/-- **A run from a cursor that ends as a reader answers**: with its problem, or with its value and
the cursor from which on its tokens are left. -/
def Agrees (least : Nat) (c : Cursor) (run : Outcome (α × Cursor)) :
    Except Problem (α × List Token) → Prop
  | .error problem => run = refuse problem
  | .ok (a, us) => ∃ d, run = pure (a, d) ∧ Advances least c d ∧ d.rest = us

namespace Agrees

variable {run : Outcome (α × Cursor)} {answer : Except Problem (α × List Token)}

theorem pure (a : α) : Agrees 0 c (Pure.pure (a, c)) (.ok (a, c.rest)) := ⟨c, rfl, .refl c, rfl⟩

theorem weaken (h : Agrees m c run answer) : Agrees 0 c run answer := by
  cases answer with
  | error problem => exact h
  | ok r =>
    obtain ⟨d, hrun, hd, hrest⟩ := h
    exact ⟨d, hrun, hd.mono (Nat.zero_le m), hrest⟩

/-- A run from a later cursor, after the first one has gone there. -/
theorem after (hd : Advances m c d) (h : Agrees 0 d run answer) : Agrees m c run answer := by
  cases answer with
  | error problem => exact h
  | ok r =>
    obtain ⟨e, hrun, he, hrest⟩ := h
    exact ⟨e, hrun, hd.trans he, hrest⟩

theorem later (hd : Advances m c d) (h : Agrees 0 d run answer) : Agrees 0 c run answer :=
  (after hd h).weaken

theorem bind {f : α × Cursor → Outcome (β × Cursor)}
    {g : α × List Token → Except Problem (β × List Token)} (h : Agrees m c run answer)
    (hfg : ∀ a d, Advances m c d → Agrees 0 d (f (a, d)) (g (a, d.rest))) :
    Agrees m c (run >>= f) (answer >>= g) := by
  cases answer with
  | error problem =>
    obtain rfl : run = refuse problem := h
    rfl
  | ok r =>
    obtain ⟨a, us⟩ := r
    obtain ⟨d, rfl, hd, rfl⟩ := h
    exact after hd (hfg a d hd)

theorem map (h : Agrees m c run answer) (make : α → β) :
    Agrees m c (run >>= fun r => Pure.pure (make r.1, r.2))
      (answer >>= fun r => Pure.pure (make r.1, r.2)) :=
  h.bind fun a _ _ => pure (make a)

end Agrees

/-! ## Single tokens -/

theorem expect_of_peek {wanted : Char} (h : c.peek = some (.mark wanted)) :
    c.expect wanted = pure ((), c.next) :=
  if_pos h

theorem expect_agrees (c : Cursor) (wanted : Char) :
    Agrees 1 c (c.expect wanted) (close wanted c.rest) := by
  rw [expect]
  cases hc : c.peek with
  | none =>
    rw [rest_of_none hc]
    rfl
  | some t =>
    rw [rest_of_some hc, close]
    by_cases ht : t = .mark wanted
    · rw [if_pos ht, if_pos (congrArg some ht)]
      exact .after (.next hc) (.pure ())
    · rw [if_neg ht, if_neg (fun h => ht (Option.some.inj h))]
      rfl

theorem fieldKey_agrees (hc : Fits kindOf n c) :
    Agrees 1 c (c.fieldKey kindOf) (TypeExpr.fieldKey c.rest) := by
  rw [fieldKey]
  cases ht : c.peek with
  | none =>
    rw [rest_of_none ht]
    rfl
  | some t =>
    dsimp only
    rw [rest_of_some ht, hc.kindOf_eq ht, found, pure_bind]
    cases t with
    | literal text => exact .after (.next ht) (.pure _)
    | word text => exact .after (.next ht) (.pure _)
    | ellipsis | opening | mark => rfl

/-- The loop over the modifiers takes those that are next. -/
theorem modifiers_agrees (t : TypeExpr) {us : List Token} (hus : c.rest = us) :
    Agrees 0 c (c.modifiers t) (.ok (modified t us)) := by
  fun_induction modified t us generalizing c with
  | case1 t us ih | case2 t us ih | case3 t us ih =>
    obtain ⟨hc, hnext⟩ := peek_of_rest hus
    rw [modifiers, hc]
    exact .later (.next hc) (ih hnext)
  | case4 t us ih =>
    obtain ⟨hc, hnext⟩ := peek_of_rest hus
    obtain ⟨hc', hnext'⟩ := peek_of_rest hnext
    rw [modifiers, hc, hc']
    exact .later ((Advances.next hc).trans (.next hc')) (ih hnext')
  | case5 t us h₁ h₂ h₃ h₄ =>
    subst hus
    have hrun : c.modifiers t = pure (t, c) := by
      rw [modifiers]
      split
      · next h => exact (h₁ _ (rest_of_some h)).elim
      · next h => exact (h₂ _ (rest_of_some h)).elim
      · next h => exact (h₃ _ (rest_of_some h)).elim
      · next h h' => exact (h₄ _ ((rest_of_some h).trans (congrArg _ (rest_of_some h')))).elim
      · rfl
    rw [hrun]
    exact .pure t

/-! ## Sequences -/

/-- Whether the procedure for a phrase takes a token and agrees with the reader of depth `n`,
wherever at most `n` tokens are left. -/
def Reads (kindOf : Token → Option Token.Kind) (n : Nat) (p : Phrase) : Prop :=
  ∀ c : Cursor, Fits kindOf n c → Agrees 1 c (c.read kindOf p) (p.parser n c.rest)

section Sequences

variable {mark closing : Char} {item : Phrase}

/-- The loop over further items ends, as each round takes the mark before an item. -/
theorem following_agrees (h : Reads kindOf n item) (hc : Fits kindOf n c) (hm : c.left ≤ m) :
    Agrees 0 c (c.following kindOf mark item)
      (TypeExpr.following mark (item.parser n) m c.rest) := by
  induction m generalizing c with
  | zero =>
    rw [following, peek_of_left (Nat.le_zero.mp hm)]
    exact .pure []
  | succ m ih =>
    rw [following]
    by_cases hmark : c.peek = some (.mark mark)
    · have hnext := Advances.next hmark
      have hleft := hnext.left_le
      rw [rest_of_some hmark, TypeExpr.following, if_pos hmark, if_pos rfl]
      refine .later hnext ((h c.next (hc.later hnext)).weaken.bind fun a d hd => ?_)
      have hleft' := hd.left_le
      exact (ih ((hc.later hnext).later hd) (by omega)).bind fun as e _ => .pure (a :: as)
    · rw [if_neg hmark, following_of_head_ne _ (by rwa [head?_rest])]
      exact .pure []

theorem separated_agrees (h : Reads kindOf n item) (hc : Fits kindOf n c) :
    Agrees 1 c (c.separated kindOf mark item)
      (TypeExpr.separated mark (item.parser n) c.rest) := by
  rw [separated]
  refine (h c hc).bind fun a d hd => ?_
  have hrounds : d.left ≤ d.rest.length := Nat.le_of_eq d.length_rest.symm
  exact (following_agrees h (hc.later hd) hrounds).bind fun as e _ => .pure (a, as)

/-- What a reader of items takes after an item. -/
def itemEnd (closing : Char) : Parser Unit := fun us =>
  if us.head? = some (.mark ',') then .ok ((), us.tail)
  else if us.head? = some (.mark closing) then .ok ((), us)
  else .error (.unexpected us.head?)

/-- One round of a reader of items. -/
def itemRound {α : Type} (closing : Char) (item : Parser α) : Parser α := fun us => do
  let (a, us) ← item us
  let (_, us) ← itemEnd closing us
  return (a, us)

theorem items_succ {α : Type} (closing : Char) (item : Parser α) (n : Nat) (us : List Token) :
    items closing item (n + 1) us =
      if us.head? = some (.mark closing) then .ok ([], us.tail)
      else do
        let first ← itemRound closing item us
        let others ← items closing item n first.2
        return (first.1 :: others.1, others.2) := by
  rw [items, itemRound]
  split
  · rfl
  · cases item us with
    | error problem => rfl
    | ok r =>
      obtain ⟨a, us⟩ := r
      simp only [bind, Except.bind, itemEnd]
      split
      · rfl
      · next hother =>
        have hcomma : us.head? ≠ some (.mark ',') := by
          intro hhead
          obtain ⟨vs, hvs⟩ := List.head?_eq_some_iff.mp hhead
          exact hother vs hvs
        rw [if_neg hcomma]
        split <;> rfl

theorem afterItem_agrees (c : Cursor) :
    Agrees 0 c (c.afterItem closing) (itemEnd closing c.rest) := by
  rw [afterItem, itemEnd, head?_rest, tail_rest]
  split
  · next hcomma => exact .later (.next hcomma) (.pure ())
  · split
    · exact .pure ()
    · rfl

theorem round_agrees (h : Reads kindOf n item) (hc : Fits kindOf n c) :
    Agrees 1 c (c.round kindOf closing item) (itemRound closing (item.parser n) c.rest) := by
  rw [round, itemRound]
  exact (h c hc).bind fun a d _ => d.afterItem_agrees.map fun _ => a

/-- The loop over items ends, as each round takes a token. -/
theorem items_agrees (h : Reads kindOf n item) (hc : Fits kindOf n c) (hm : c.left < m) :
    Agrees 1 c (c.list kindOf closing item) (items closing (item.parser n) m c.rest) := by
  -- One round for each token that is left, and one more that sees the closing mark.
  induction m generalizing c with
  | zero => omega
  | succ m ih =>
    rw [list, items_succ, head?_rest]
    split
    · next hclosing =>
      rw [expect_of_peek hclosing, tail_rest]
      exact .after (.next hclosing) (.pure [])
    · refine (round_agrees h hc).bind fun a d hd => ?_
      have hleft := hd.left_le
      exact (ih (hc.later hd) (by omega)).weaken.bind fun as e _ => .pure (a :: as)

theorem list_agrees (h : Reads kindOf n item) (hc : Fits kindOf n c) :
    Agrees 1 c (c.list kindOf closing item) (TypeExpr.list closing (item.parser n) c.rest) :=
  items_agrees h hc (Nat.lt_succ_of_le (Nat.le_of_eq c.length_rest.symm))

end Sequences

/-! ## Constructs -/

section Constructs

variable (h : Reads kindOf n .type)
include h

theorem type_agrees (hc : Fits kindOf n c) :
    Agrees 1 c (c.type kindOf) (typeAt n c.rest) := by
  have htype := h c hc
  rwa [read] at htype

theorem top_agrees (hc : Fits kindOf n c) :
    Agrees 1 c (c.top kindOf) (TypeExpr.top (typeAt n) c.rest) := by
  rw [top]
  exact (separated_agrees h hc).map fun r => if r.2.isEmpty then r.1 else .union (r.1 :: r.2)

theorem top_reads : Reads kindOf n .top := by
  intro c hc
  rw [read]
  exact top_agrees h hc

theorem field_reads : Reads kindOf n .field := by
  intro c hc
  rw [read, field]
  refine (fieldKey_agrees hc).bind fun key d hd => ?_
  dsimp only
  split
  · next hcolon =>
    have hnext := Advances.next hcolon
    have htop := top_agrees h ((hc.later hd).later hnext)
    rw [rest_of_some hcolon]
    exact .later hnext (htop.weaken.map fun t => (key, some t))
  · next hcolon =>
    split
    · next us heq => exact absurd (peek_of_rest heq).1 hcolon
    · exact .pure (key, none)

/-- After `this:` or `new:` follows a type. -/
theorem special_agrees {w : Text} (make : TypeExpr → Param) (hc : Fits kindOf n c)
    (hw : c.peek = some (.word w)) (hcolon : c.next.peek = some (.mark ':')) :
    Agrees 1 c (c.next.next.top kindOf >>= fun r => pure (make r.1, r.2))
      (TypeExpr.top (typeAt n) c.next.next.rest >>= fun r => pure (make r.1, r.2)) := by
  have hnext := (Advances.next hw).trans (.next hcolon)
  exact .after (hnext.mono (by omega)) ((top_agrees h (hc.later hnext)).weaken.map make)

theorem param_reads : Reads kindOf n .param := by
  intro c hc
  rw [read, param]
  show Agrees 1 c _ (TypeExpr.param (typeAt n) c.rest)
  split
  · next hthis =>
    rw [rest_of_some hthis.1, rest_of_some hthis.2]
    exact special_agrees h .receiver hc hthis.1 hthis.2
  · split
    · next hnew =>
      rw [rest_of_some hnew.1, rest_of_some hnew.2]
      exact special_agrees h .constructed hc hnew.1 hnew.2
    · next hthis hnew =>
      have hplain : TypeExpr.param (typeAt n) c.rest
          = TypeExpr.param.plain (typeAt n) c.rest := by
        rw [TypeExpr.param.eq_def]
        split
        · next w us heq =>
          obtain ⟨hw, hnext⟩ := peek_of_rest heq
          obtain ⟨hcolon, -⟩ := peek_of_rest hnext
          rw [if_neg, if_neg]
          · rintro rfl
            exact hnew ⟨hw, hcolon⟩
          · rintro rfl
            exact hthis ⟨hw, hcolon⟩
        · rfl
      rw [hplain]
      exact (top_agrees h hc).map Param.plain

theorem application_agrees (base : TypeExpr) (hc : Fits kindOf n c) :
    Agrees 0 c (c.application kindOf base) (arguments (typeAt n) base c.rest) := by
  rw [application]
  split
  · next hopening =>
    obtain ⟨t, ht, harguments⟩ : ∃ t, c.peek = some t ∧
        arguments (typeAt n) base c.rest = (do
          let r ← TypeExpr.separated ',' (TypeExpr.top (typeAt n)) c.next.rest
          let closed ← close '>' r.2
          return (.application base (r.1.1 :: r.1.2), closed.2)) := by
      rcases hopening with ht | ht
      · exact ⟨_, ht, by rw [rest_of_some ht]; rfl⟩
      · exact ⟨_, ht, by rw [rest_of_some ht]; rfl⟩
    have hnext := Advances.next ht
    rw [harguments]
    refine .later hnext ?_
    refine (separated_agrees (top_reads h) (hc.later hnext)).weaken.bind fun r d _ => ?_
    exact (d.expect_agrees '>').weaken.map fun _ => TypeExpr.application base (r.1 :: r.2)
  · next hopening =>
    have harguments : arguments (typeAt n) base c.rest = .ok (base, c.rest) := by
      rw [arguments.eq_def]
      split
      · next us heq => exact absurd (.inl (peek_of_rest heq).1) hopening
      · next us heq => exact absurd (.inr (peek_of_rest heq).1) hopening
      · rfl
    rw [harguments]
    exact .pure base

theorem union_agrees (hc : Fits kindOf n c) :
    Agrees 1 c (c.union kindOf) (unionMembers (typeAt n) c.rest) := by
  rw [union, unionMembers, head?_rest]
  split
  · next hclosing =>
    rw [tail_rest]
    simp only [pure_bind, expect_of_peek hclosing]
    exact .after (.next hclosing) (.pure _)
  · refine (separated_agrees h hc).bind fun r d _ => ?_
    simp only [pure_bind]
    exact (d.expect_agrees ')').weaken.map fun _ => TypeExpr.union (r.1 :: r.2)

theorem array_agrees (hc : Fits kindOf n c) :
    Agrees 1 c (c.array kindOf) (do
      let r ← TypeExpr.list ']' (TypeExpr.top (typeAt n)) c.rest
      return (.array r.1, r.2)) := by
  rw [array]
  exact (list_agrees (top_reads h) hc).map TypeExpr.array

theorem record_agrees (hc : Fits kindOf n c) :
    Agrees 1 c (c.record kindOf) (do
      let r ← TypeExpr.list '\x7d' (TypeExpr.field (typeAt n)) c.rest
      return (.record r.1, r.2)) := by
  rw [record]
  exact (list_agrees (field_reads h) hc).map TypeExpr.record

theorem function_agrees (hc : Fits kindOf n c) :
    Agrees 1 c (c.function kindOf) (do
      let r ← close '(' c.rest
      functionType (typeAt n) r.2) := by
  rw [function]
  refine (c.expect_agrees '(').bind fun _ d hd => ?_
  dsimp only [functionType]
  refine (list_agrees (param_reads h) (hc.later hd)).weaken.bind fun params e he => ?_
  simp only [pure_bind]
  split
  · next hcolon =>
    have hnext := Advances.next hcolon
    have hresult := (type_agrees h (((hc.later hd).later he).later hnext)).weaken
    rw [rest_of_some hcolon]
    exact .later hnext (hresult.map fun t => functionOf params (some t))
  · next hcolon =>
    split
    · next us heq => exact absurd (peek_of_rest heq).1 hcolon
    · exact .pure (functionOf params none)

/-- What is no mark and no keyword is a name, or no type starts with it. -/
theorem name_agrees {t : Token} (hc : Fits kindOf (n + 1) c) (ht : c.peek = some t)
    (hall : t ≠ .mark '*') (hunion : t ≠ .mark '(') (harray : t ≠ .mark '[')
    (hrecord : t ≠ .mark '\x7b') (hnull : t ≠ .word "null")
    (hfunction : ¬ (t = .word "function" ∧ c.next.peek = some (.mark '('))) :
    Agrees 1 c (do
        let kind ← found (kindOf t)
        if kind = .other then refuse (.unexpected (some t))
        else c.next.application kindOf (.name t.text))
      (TypeExpr.basic (typeAt n) (t :: c.next.rest)) := by
  rw [hc.kindOf_eq ht, found, pure_bind]
  cases t with
  | word w =>
    have hname : TypeExpr.basic (typeAt n) (.word w :: c.next.rest)
        = arguments (typeAt n) (.name w) c.next.rest := by
      rw [TypeExpr.basic, head?_rest, if_neg fun hw => hfunction ⟨congrArg Token.word hw.1, hw.2⟩,
        if_neg fun hw => hnull (congrArg Token.word hw)]
    rw [hname]
    exact .after (.next ht) (application_agrees h _ (hc.next ht))
  | literal text => exact .after (.next ht) (application_agrees h _ (hc.next ht))
  | ellipsis | opening => rfl
  | mark m =>
    have hrefused : TypeExpr.basic (typeAt n) (.mark m :: c.next.rest)
        = .error (.unexpected (some (.mark m))) := by
      rw [TypeExpr.basic.eq_def]
      split <;> simp_all
    rw [hrefused]
    rfl

theorem basic_agrees (hc : Fits kindOf (n + 1) c) :
    Agrees 1 c (c.basic kindOf) (TypeExpr.basic (typeAt n) c.rest) := by
  rw [basic]
  split
  · next ht =>
    rw [rest_of_none ht]
    rfl
  · next ht =>
    rw [rest_of_some ht]
    exact .after (.next ht) (.pure _)
  · next ht =>
    rw [rest_of_some ht]
    exact .after (.next ht) (union_agrees h (hc.next ht)).weaken
  · next ht =>
    rw [rest_of_some ht]
    exact .after (.next ht) (array_agrees h (hc.next ht)).weaken
  · next ht =>
    rw [rest_of_some ht]
    exact .after (.next ht) (record_agrees h (hc.next ht)).weaken
  · next t hall hunion harray hrecord ht =>
    rw [rest_of_some ht]
    split
    · next hfunction =>
      obtain ⟨rfl, hopening⟩ := hfunction
      have hclose : close '(' c.next.rest = .ok ((), c.next.next.rest) := by
        rw [rest_of_some hopening]
        rfl
      have hrun := (function_agrees h (hc.next ht)).weaken
      rw [hclose] at hrun
      rw [TypeExpr.basic, head?_rest, tail_rest, if_pos ⟨rfl, hopening⟩]
      exact .after (.next ht) hrun
    · next hfunction =>
      split
      · next hnull =>
        subst hnull
        exact .after (.next ht) (.pure _)
      · next hnull => exact name_agrees h hc ht hall hunion harray hrecord hnull hfunction

theorem type_reads : Reads kindOf (n + 1) .type := by
  intro c hc
  rw [read, type]
  show Agrees 1 c _ (typeAt (n + 1) c.rest)
  split
  · next ht =>
    rw [rest_of_some ht, typeAt, atTerminator, head?_rest]
    refine .after (.next ht) ?_
    split
    · exact .pure _
    · exact (type_agrees h (hc.next ht)).weaken.map TypeExpr.nullable
  · next ht =>
    rw [rest_of_some ht, typeAt]
    exact .after (.next ht) (type_agrees h (hc.next ht)).weaken
  · next ht =>
    rw [rest_of_some ht, typeAt, atTerminator, head?_rest]
    refine .after (.next ht) ?_
    split
    · exact .pure _
    · exact (type_agrees h (hc.next ht)).weaken.map fun t => TypeExpr.variadic (some t)
  · next h₁ h₂ h₃ =>
    -- No prefix is next. The tokens may be at their end, where a basic type is missing.
    have hplain : typeAt (n + 1) c.rest = (do
        let r ← TypeExpr.basic (typeAt n) c.rest
        return modified r.1 r.2) := by
      cases ht : c.peek with
      | none =>
        rw [rest_of_none ht]
        rfl
      | some t =>
        rw [rest_of_some ht]
        exact typeAt_succ_eq n (fun he => h₁ (he ▸ ht)) (fun he => h₂ (he ▸ ht))
          (fun he => h₃ (he ▸ ht))
    rw [hplain]
    exact (basic_agrees h hc).bind fun t d _ => modifiers_agrees t rfl

end Constructs

/-! ## Whole runs -/

theorem reads_type (kindOf : Token → Option Token.Kind) (n : Nat) : Reads kindOf n .type := by
  induction n with
  | zero =>
    -- Nothing is left, and a basic type is missing.
    intro c hc
    have hend : c.peek = none := peek_of_left (Nat.le_zero.mp hc.left_le)
    rw [read, type, hend]
    dsimp only
    rw [basic, hend]
    rfl
  | succ n ih => exact type_reads ih

/-- **Every procedure ends as its reader answers**, wherever it starts. -/
theorem reads (kindOf : Token → Option Token.Kind) (n : Nat) : (p : Phrase) → Reads kindOf n p
  | .type => reads_type kindOf n
  | .top => top_reads (reads_type kindOf n)
  | .basic => fun c hc => by
    rw [read]
    exact basic_agrees (reads_type kindOf n) (hc.mono (Nat.le_succ n))
  | .field => field_reads (reads_type kindOf n)
  | .param => param_reads (reads_type kindOf n)
  | .separated _ item => fun c hc => by
    rw [read]
    exact separated_agrees (reads kindOf n item) hc
  | .list _ item => fun c hc => by
    rw [read]
    exact list_agrees (reads kindOf n item) hc

theorem ofTokens_eq {ts : List Token} (htold : ∀ t ∈ ts, kindOf t = some t.kind) :
    ofTokens kindOf ts = declared (TypeExpr.ofTokens ts) := by
  rw [ofTokens, TypeExpr.ofTokens]
  split
  · rfl
  · have htop : Agrees 1 ⟨ts, 0⟩ ((⟨ts, 0⟩ : Cursor).top kindOf)
        (TypeExpr.top (typeAt ts.length) ts) :=
      top_agrees (reads_type kindOf ts.length) ⟨htold, Nat.sub_le _ _⟩
    cases hanswer : TypeExpr.top (typeAt ts.length) ts with
    | error problem =>
      rw [hanswer] at htop
      rw [htop]
      rfl
    | ok r =>
      obtain ⟨t, us⟩ := r
      rw [hanswer] at htop
      obtain ⟨d, hrun, -, rfl⟩ := htop
      rw [hrun, pure_bind]
      dsimp only
      cases hd : d.peek with
      | none =>
        rw [rest_of_none hd]
        rfl
      | some found =>
        rw [rest_of_some hd]
        rfl

/-- A text is cut into tokens in one round for each character at most, and where no token can be
read there is a character left. -/
theorem typeTokens_eq {cs : Text} (hn : cs.length ≤ n) :
    Text.typeTokens cs = declared ((Token.scan n cs).mapError .strayChar) := by
  induction n generalizing cs with
  | zero =>
    obtain rfl : cs = [] := List.eq_nil_of_length_eq_zero (Nat.le_zero.mp hn)
    rw [Text.typeTokens]
    rfl
  | succ n ih =>
    rw [Text.typeTokens, Token.scan]
    cases hstart : Text.stripLeft cs with
    | nil =>
      rw [Text.strip, hstart]
      rfl
    | cons c cs' =>
      obtain ⟨tail, hstrip⟩ : ∃ tail, Text.strip cs = c :: tail := by
        rw [Text.strip, hstart]
        exact ⟨_, Text.stripRight_append_cons (Text.not_isBlank_of_stripLeft hstart) [] cs'⟩
      have hlength : (c :: cs').length ≤ cs.length :=
        hstart ▸ (List.dropWhile_sublist Text.isBlank).length_le
      rw [hstrip, if_neg (by simp)]
      dsimp only
      cases hread : Token.read? (c :: cs') with
      | none => rfl
      | some taken =>
        obtain ⟨token, us⟩ := taken
        have hus := Token.length_lt_of_read? hread
        dsimp only
        rw [ih (by omega)]
        cases Token.scan n us <;> rfl

/-- **Reading a text without any bound** ends with what the text denotes, if the kinds of the tokens
that are cut from it are told as they are. -/
theorem parse_eq (source : Text)
    (htold : ∀ t : Token, t.Readable → kindOf t = some t.kind) :
    parse kindOf source = declared (TypeExpr.parse source) := by
  rw [parse, typeTokens_eq (Nat.le_refl _), TypeExpr.parse, Token.tokens]
  cases hscan : Token.scan source.length source with
  | error c => rfl
  | ok ts => exact ofTokens_eq fun t ht => htold t (Token.readable_of_mem_scan hscan t ht)

/-- **A run from a cursor that ends**, with a result or a problem. If it ends with a result, the
cursor has gone over `least` tokens at least and not beyond the end. -/
structure Ends (least : Nat) (c : Cursor) (run : Outcome (α × Cursor)) : Prop where
  outcome : ∃ outcome, run = declared outcome
  advances : ∀ a d, run = pure (a, d) → Advances least c d

theorem Agrees.ends {run : Outcome (α × Cursor)} {answer : Except Problem (α × List Token)}
    (h : Agrees m c run answer) : Ends m c run := by
  cases answer with
  | error problem =>
    obtain rfl : run = refuse problem := h
    exact ⟨⟨.error problem, rfl⟩, fun a d heq => by cases heq⟩
  | ok r =>
    obtain ⟨a, us⟩ := r
    obtain ⟨d, rfl, hd, -⟩ := h
    exact ⟨⟨.ok (a, d), rfl⟩, fun b e heq => by cases heq; exact hd⟩

/-- **The procedures make progress and end**, from every index of any tokens. All of them end with
an index that is not beyond the end, and all but the arguments of a name, which may be missing, have
taken a token; so has every round of the loops over elements, fields and parameters. What they end
with is what the bounded readers answer, so that reading a text ends with what the text denotes. -/
theorem procedures_end (c : Cursor) :
    Ends 1 c (c.top Token.ownKind) ∧ Ends 1 c (c.type Token.ownKind) ∧
    Ends 1 c (c.basic Token.ownKind) ∧ (∀ base, Ends 0 c (c.application Token.ownKind base)) ∧
    Ends 1 c (c.union Token.ownKind) ∧ Ends 1 c (c.array Token.ownKind) ∧
    Ends 1 c (c.record Token.ownKind) ∧ Ends 1 c (c.function Token.ownKind) ∧
    Ends 1 c (c.round Token.ownKind ']' .top) ∧ Ends 1 c (c.round Token.ownKind '\x7d' .field) ∧
    Ends 1 c (c.round Token.ownKind ')' .param) ∧
    (∀ p : Phrase, Agrees 1 c (c.read Token.ownKind p) (p.parser c.tokens.length c.rest)) ∧
    ∀ source, parse Token.ownKind source = declared (TypeExpr.parse source) := by
  have h := reads_type Token.ownKind c.tokens.length
  have hc : Fits Token.ownKind c.tokens.length c := ⟨fun _ _ => rfl, Nat.sub_le _ _⟩
  exact ⟨(top_agrees h hc).ends, (type_agrees h hc).ends,
    (basic_agrees h (hc.mono (Nat.le_succ _))).ends,
    fun base => (application_agrees h base hc).ends, (union_agrees h hc).ends,
    (array_agrees h hc).ends, (record_agrees h hc).ends, (function_agrees h hc).ends,
    (round_agrees (top_reads h) hc).ends, (round_agrees (field_reads h) hc).ends,
    (round_agrees (param_reads h) hc).ends, fun p => reads Token.ownKind c.tokens.length p c hc,
    fun source => parse_eq source fun _ _ => rfl⟩

end Cursor

end TypeExpr

end DocModel
