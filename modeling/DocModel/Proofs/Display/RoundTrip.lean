import DocModel.Proofs.Display.Tokens
import DocModel.Proofs.Grammar.Completeness

/-!
# Reading the display form of a type

The display form of a type is written for readers and is looser than the notation that is read:
unions lose their parentheses, the arguments of an application are listed like a union, and the
receiver and the constructed type of a function are dropped. So reading a display form does not
give the type back, but its **normal form**: the union of its alternatives, where what was written
before a union belongs to the first alternative alone. The display form of the normal form is
the same text, so from then on nothing changes.

Three kinds of types are left out. The display form does not close a record, it marks an optional
type like a nullable one, and a union without members leaves no trace in it.
-/

namespace DocModel.TypeExpr

/-! ## Types and their parts -/

/-- Induction over a type expression, with the parts of each construct at hand. -/
@[elab_as_elim]
theorem induction_parts {motive : TypeExpr → Prop} (name : ∀ text, motive (.name text))
    (all : motive .all) (null : motive .null)
    (nullable : ∀ inner, motive inner → motive (.nullable inner))
    (optional : ∀ inner, motive inner → motive (.optional inner))
    (union : ∀ members, (∀ t ∈ members, motive t) → motive (.union members))
    (variadic : ∀ inner : Option TypeExpr, (∀ t ∈ inner, motive t) → motive (.variadic inner))
    (array : ∀ items, (∀ t ∈ items, motive t) → motive (.array items))
    (application : ∀ base arguments, motive base → (∀ t ∈ arguments, motive t) →
      motive (.application base arguments))
    (record : ∀ fields : List (Text × Option TypeExpr), (∀ f ∈ fields, ∀ t ∈ f.2, motive t) →
      motive (.record fields))
    (function : ∀ (params : List TypeExpr) (result receiver constructed : Option TypeExpr),
      (∀ t ∈ params, motive t) → (∀ t ∈ result, motive t) →
      motive (.function params result receiver constructed)) (t : TypeExpr) : motive t :=
  @TypeExpr.rec motive (fun ts => ∀ t ∈ ts, motive t) (fun o => ∀ t ∈ o, motive t)
    (fun fields => ∀ f ∈ fields, ∀ t ∈ f.2, motive t) (fun f => ∀ t ∈ f.2, motive t)
    name all null nullable optional union variadic array application record
    (fun params result receiver constructed hp hr _ _ =>
      function params result receiver constructed hp hr)
    (by simp) (fun t ts ht hts => List.forall_mem_cons.mpr ⟨ht, hts⟩)
    (by simp) (fun t ht => by simpa using ht)
    (by simp) (fun f fs hf hfs => List.forall_mem_cons.mpr ⟨hf, hfs⟩)
    (fun _ _ h => h) t

/-- **The parts of a type that its display form shows**, the type itself included. The receiver and
the constructed type of a function are not shown. -/
inductive Shows : TypeExpr → TypeExpr → Prop
  | self {t} : Shows t t
  | nullable {inner u} : Shows inner u → Shows (.nullable inner) u
  | optional {inner u} : Shows inner u → Shows (.optional inner) u
  | member {members t u} : t ∈ members → Shows t u → Shows (.union members) u
  | variadic {inner u} : Shows inner u → Shows (.variadic (some inner)) u
  | item {items t u} : t ∈ items → Shows t u → Shows (.array items) u
  | base {base arguments u} : Shows base u → Shows (.application base arguments) u
  | argument {base arguments t u} : t ∈ arguments → Shows t u →
      Shows (.application base arguments) u
  | field {fields key t u} : (key, some t) ∈ fields → Shows t u → Shows (.record fields) u
  | param {params result receiver constructed t u} : t ∈ params → Shows t u →
      Shows (.function params result receiver constructed) u
  | result {params result receiver constructed u} : Shows result u →
      Shows (.function params (some result) receiver constructed) u

theorem Shows.trans {t u v : TypeExpr} (h : Shows t u) (h' : Shows u v) : Shows t v := by
  induction h with
  | self => exact h'
  | nullable _ ih => exact .nullable (ih h')
  | optional _ ih => exact .optional (ih h')
  | member hmem _ ih => exact .member hmem (ih h')
  | variadic _ ih => exact .variadic (ih h')
  | item hmem _ ih => exact .item hmem (ih h')
  | base _ ih => exact .base (ih h')
  | argument hmem _ ih => exact .argument hmem (ih h')
  | field hmem _ ih => exact .field hmem (ih h')
  | param hmem _ ih => exact .param hmem (ih h')
  | result _ ih => exact .result (ih h')

/-- **The types whose display form can be read back**: it shows no record, which is not closed, no
optional type, whose mark reads as another one, and no union without members. -/
structure Plain (t : TypeExpr) : Prop where
  noRecord : ∀ fields, ¬ t.Shows (.record fields)
  noOptional : ∀ inner, ¬ t.Shows (.optional inner)
  noEmptyUnion : ¬ t.Shows (.union [])

theorem Plain.part {t u : TypeExpr} (h : t.Plain) (hu : t.Shows u) : u.Plain where
  noRecord fields h' := h.noRecord fields (hu.trans h')
  noOptional inner h' := h.noOptional inner (hu.trans h')
  noEmptyUnion h' := h.noEmptyUnion (hu.trans h')

/-! ## The alternatives of a type -/

/-- A list with its first member replaced. -/
def onHead (f : TypeExpr → TypeExpr) : List TypeExpr → List TypeExpr
  | [] => []
  | t :: ts => f t :: ts

/-- The type that is one of the given ones: the only one, or a union. -/
def oneOf : List TypeExpr → TypeExpr
  | [t] => t
  | ts => .union ts

mutual

/-- **The alternatives of a type**, as its display form lists them between bars. As the form has
no parentheses, what stands before a union goes to its first member alone. -/
def flat : TypeExpr → List TypeExpr
  | name text => [name text]
  | all => [all]
  | null => [null]
  | nullable inner => onHead nullable inner.flat
  | optional inner => [optional inner]
  | union members => flatEach members
  | variadic inner => onHead (fun t => variadic (some t)) (flatOption inner)
  | array items => [array (normalEach items)]
  | application base arguments => [application base [oneOf (flatEach arguments)]]
  | record fields => [record fields]
  | function params result _ _ =>
    onHead (fun t => function (normalEach params) (some t) none none) (flatOption result)

/-- The alternatives of several types, one after the other. -/
def flatEach : List TypeExpr → List TypeExpr
  | [] => []
  | t :: ts => t.flat ++ flatEach ts

/-- The alternatives of a type that may have been left out. -/
def flatOption : Option TypeExpr → List TypeExpr
  | none => [all]
  | some t => t.flat

/-- Several types, each in its normal form. -/
def normalEach : List TypeExpr → List TypeExpr
  | [] => []
  | t :: ts => oneOf t.flat :: normalEach ts

end

/-- **The normal form of a type**: what its display form denotes. -/
def normal (t : TypeExpr) : TypeExpr := oneOf t.flat

theorem flatEach_eq_flatMap (ts : List TypeExpr) : flatEach ts = ts.flatMap flat := by
  induction ts with
  | nil => rfl
  | cons t ts ih => rw [flatEach, ih, List.flatMap_cons]

theorem normalEach_eq_map (ts : List TypeExpr) : normalEach ts = ts.map normal := by
  induction ts with
  | nil => rfl
  | cons t ts ih => rw [normalEach, ih, List.map_cons, normal]

theorem flatOption_eq (o : Option TypeExpr) : flatOption o = (o.getD all).flat := by
  cases o <;> rfl

/-! ## The display form of the alternatives -/

theorem format_oneOf (ts : List TypeExpr) : (oneOf ts).format = Text.join "|" (ts.map format) := by
  match ts with
  | [] => rw [oneOf, format_union]; simp
  | [t] => rw [oneOf]; rfl
  | t :: u :: ts => rw [oneOf, format_union]; simp

theorem onHead_ne_nil {f : TypeExpr → TypeExpr} {ts : List TypeExpr} (h : ts ≠ []) :
    onHead f ts ≠ [] := by
  cases ts with
  | nil => exact absurd rfl h
  | cons t ts => simp [onHead]

theorem join_format_onHead {f : TypeExpr → TypeExpr} {lead : Text} {ts : List TypeExpr}
    (hf : ∀ t, (f t).format = lead ++ t.format) (hts : ts ≠ []) :
    Text.join "|" ((onHead f ts).map format) = lead ++ Text.join "|" (ts.map format) := by
  match ts with
  | [t] => exact hf t
  | t :: u :: ts => simp [onHead, Text.join, hf]

/-- Whether the display form of a type lists its alternatives between bars. -/
structure Faithful (t : TypeExpr) : Prop where
  flat_ne_nil : t.flat ≠ []
  join_format : Text.join "|" (t.flat.map format) = t.format

theorem Faithful.format_normal {t : TypeExpr} (h : t.Faithful) : t.normal.format = t.format := by
  rw [normal, format_oneOf, h.join_format]

theorem join_format_flatMap {ts : List TypeExpr} (h : ∀ t ∈ ts, t.Faithful) :
    Text.join "|" ((ts.flatMap flat).map format) = Text.join "|" (ts.map format) := by
  induction ts with
  | nil => rfl
  | cons t ts ih =>
    have ht := h t (by simp)
    have ih := ih fun u hu => h u (List.mem_cons_of_mem _ hu)
    cases ts with
    | nil =>
      rw [List.flatMap_singleton, ht.join_format]
      rfl
    | cons u us =>
      have hrest : ((u :: us).flatMap flat).map format ≠ [] := by
        simp [(h u (by simp)).flat_ne_nil]
      rw [List.flatMap_cons, List.map_append,
        Text.join_append (by simpa using ht.flat_ne_nil) hrest, ht.join_format, ih]
      exact (Text.join_cons (by simp)).symm

theorem map_format_normal {ts : List TypeExpr} (h : ∀ t ∈ ts, t.Faithful) :
    (ts.map normal).map format = ts.map format := by
  rw [List.map_map]
  exact List.map_congr_left fun t ht => (h t ht).format_normal

theorem getD_all {motive : TypeExpr → Prop} {o : Option TypeExpr} (hall : motive all)
    (h : ∀ t ∈ o, motive t) : motive (o.getD all) := by
  cases o with
  | none => exact hall
  | some t => exact h t rfl

theorem faithful_all : all.Faithful := ⟨by simp [flat], rfl⟩

/-- **The display form of a plain type lists its alternatives between bars.** -/
theorem Plain.faithful {t : TypeExpr} (h : t.Plain) : t.Faithful := by
  induction t using induction_parts with
  | name | null => exact ⟨by simp [flat], rfl⟩
  | all => exact faithful_all
  | nullable inner ih =>
    have hinner := ih (h.part (.nullable .self))
    refine ⟨onHead_ne_nil hinner.flat_ne_nil, ?_⟩
    rw [flat, join_format_onHead format_nullable hinner.flat_ne_nil, hinner.join_format,
      format_nullable]
  | optional inner => exact absurd .self (h.noOptional inner)
  | union members ih =>
    have hparts : ∀ t ∈ members, t.Faithful := fun t ht => ih t ht (h.part (.member ht .self))
    refine ⟨?_, ?_⟩
    · cases members with
      | nil => exact absurd .self h.noEmptyUnion
      | cons t ts => simp [flat, flatEach, (hparts t (by simp)).flat_ne_nil]
    · rw [flat, flatEach_eq_flatMap, join_format_flatMap hparts, format_union]
  | variadic inner ih =>
    have hinner : (inner.getD all).Faithful :=
      getD_all faithful_all fun t ht => ih t ht (h.part (by cases ht; exact .variadic .self))
    refine ⟨?_, ?_⟩
    · rw [flat, flatOption_eq]
      exact onHead_ne_nil hinner.flat_ne_nil
    · rw [flat, flatOption_eq, join_format_onHead (fun t => format_variadic (some t))
        hinner.flat_ne_nil, hinner.join_format, format_variadic]
  | array items ih =>
    have hparts : ∀ t ∈ items, t.Faithful := fun t ht => ih t ht (h.part (.item ht .self))
    refine ⟨by simp [flat], ?_⟩
    rw [flat, normalEach_eq_map]
    show (array (items.map normal)).format = _
    rw [format_array, format_array, map_format_normal hparts]
  | application base arguments _ ih =>
    have hparts : ∀ t ∈ arguments, t.Faithful := fun t ht => ih t ht (h.part (.argument ht .self))
    refine ⟨by simp [flat], ?_⟩
    rw [flat, flatEach_eq_flatMap]
    show (application base [oneOf (arguments.flatMap flat)]).format = _
    rw [format_application, format_application, List.map_singleton, format_oneOf,
      join_format_flatMap hparts]
    rfl
  | record fields => exact absurd .self (h.noRecord fields)
  | function params result receiver constructed ihp ihr =>
    have hparts : ∀ t ∈ params, t.Faithful := fun t ht => ihp t ht (h.part (.param ht .self))
    have hresult : (result.getD all).Faithful :=
      getD_all faithful_all fun t ht => ihr t ht (h.part (by cases ht; exact .result .self))
    have hlead : ∀ t, (function (params.map normal) (some t) none none).format
        = ("function(" ++ Text.join ", " (params.map format) ++ "):") ++ t.format := by
      intro t
      rw [format_function, map_format_normal hparts]
      rfl
    refine ⟨?_, ?_⟩
    · rw [flat, flatOption_eq]
      exact onHead_ne_nil hresult.flat_ne_nil
    · rw [flat, flatOption_eq, normalEach_eq_map, join_format_onHead hlead hresult.flat_ne_nil,
        hresult.join_format, format_function]

/-! ## Names of types that were read -/

/-- Whether a type, apart from its parts, is one that reading can give: a name is that of a token
that is read again, and what has arguments is a name with one argument at least. -/
def NamedNode : TypeExpr → Prop
  | name text => ∃ token : Token, nameOf? token = some text ∧ token.Readable
  | application base arguments => (∃ text, base = name text) ∧ arguments ≠ []
  | _ => True

/-- Whether all that the display form of a type shows is properly named. -/
def Named (t : TypeExpr) : Prop := ∀ u, t.Shows u → u.NamedNode

theorem Named.part {t u : TypeExpr} (h : t.Named) (hu : t.Shows u) : u.Named :=
  fun v hv => h v (hu.trans hv)

/-- What being properly named means for the value of a phrase. -/
def Phrase.Named : (p : Phrase) → p.Meaning → Prop
  | type, t | top, t | basic, t => TypeExpr.Named t
  | field, f => ∀ t ∈ f.2, t.Named
  | param, p => ∀ t ∈ p.plain?, t.Named
  | separated _ item, as => item.Named as.1 ∧ ∀ a ∈ as.2, item.Named a
  | list _ item, as => ∀ a ∈ as, item.Named a

theorem named_union {members : List TypeExpr} (h : ∀ t ∈ members, t.Named) :
    (union members).Named := by
  intro u hu
  cases hu with
  | self => trivial
  | member hmem hu => exact h _ hmem u hu

theorem named_functionOf {params : List Param} {result : Option TypeExpr}
    (hp : ∀ p ∈ params, ∀ t ∈ p.plain?, t.Named) (hr : ∀ t ∈ result, t.Named) :
    (functionOf params result).Named := by
  intro u hu
  cases hu with
  | self => trivial
  | param hmem hu =>
    obtain ⟨p, hmem, hp'⟩ := List.mem_filterMap.mp hmem
    exact hp p hmem _ hp' u hu
  | result hu => exact hr _ rfl u hu

theorem named_application {text : Text} {arguments : List TypeExpr} (hn : (name text).Named)
    (hne : arguments ≠ []) (h : ∀ t ∈ arguments, t.Named) :
    (application (name text) arguments).Named := by
  intro u hu
  cases hu with
  | self => exact ⟨⟨text, rfl⟩, hne⟩
  | base hu => exact hn u hu
  | argument hmem hu => exact h _ hmem u hu

theorem named_name {token : Token} {text : Text} (hname : nameOf? token = some text)
    (h : token.Readable) : (name text).Named := by
  intro u hu
  cases hu
  exact ⟨token, hname, h⟩

theorem named_apply (m : Modifier) {t : TypeExpr} (h : t.Named) : (m.apply t).Named := by
  cases m with
  | optional =>
    intro u hu
    cases hu with
    | self => trivial
    | optional hu => exact h u hu
  | nullable =>
    intro u hu
    cases hu with
    | self => trivial
    | nullable hu => exact h u hu
  | nonNull => exact h
  | array =>
    have hname : nameOf? (.word "Array") = some "Array" := by decide
    exact named_application (named_name hname (Token.readable_word _ (by simp))) (by simp)
      (by simpa using h)

theorem named_foldl (ms : List Modifier) {t : TypeExpr} (h : t.Named) :
    (ms.foldl (fun t m => m.apply t) t).Named := by
  induction ms generalizing t with
  | nil => exact h
  | cons m ms ih => exact ih (named_apply m h)

theorem named_joined {members : TypeExpr × List TypeExpr} (h : members.1.Named)
    (hmore : ∀ t ∈ members.2, t.Named) : (joined members).Named := by
  match members with
  | (t, []) => exact h
  | (t, u :: us) => exact named_union (List.forall_mem_cons.mpr ⟨h, hmore⟩)

/-- **What the grammar derives from tokens that are read again is properly named.** -/
theorem Derives.named {p : Phrase} {ts rest : List Token} {a : p.Meaning} (h : Derives p ts rest a)
    (hts : ∀ token ∈ ts, token.Readable) : p.Named a := by
  induction h with
  | wildcard | anything | all | null =>
    intro u hu
    cases hu
    trivial
  | nullable _ ih => exact named_apply .nullable (ih fun token h => hts token (by simp [h]))
  | nonNull _ ih => exact ih fun token h => hts token (by simp [h])
  | variadic _ ih =>
    intro u hu
    cases hu with
    | self => trivial
    | variadic hu => exact ih (fun token h => hts token (by simp [h])) u hu
  | modified _ _ ih => exact named_foldl _ (ih fun token h => hts token (by simp [h]))
  | top _ ih =>
    obtain ⟨hfirst, hmore⟩ := ih hts
    exact named_joined hfirst hmore
  | name hname => exact named_name hname (hts _ (by simp))
  | application hname _ _ ih =>
    obtain ⟨hfirst, hmore⟩ := ih fun token h => hts token (by simp [h])
    exact named_application (named_name hname (hts _ (by simp))) (by simp)
      (List.forall_mem_cons.mpr ⟨hfirst, hmore⟩)
  | noMembers => exact named_union (by simp)
  | union _ ih =>
    obtain ⟨hfirst, hmore⟩ := ih fun token h => hts token (by simp [h])
    exact named_union (List.forall_mem_cons.mpr ⟨hfirst, hmore⟩)
  | array _ ih =>
    intro u hu
    cases hu with
    | self => trivial
    | item hmem hu => exact ih (fun token h => hts token (by simp [h])) _ hmem u hu
  | record _ ih =>
    intro u hu
    cases hu with
    | self => trivial
    | field hmem hu => exact ih (fun token h => hts token (by simp [h])) _ hmem _ rfl u hu
  | function _ ih =>
    exact named_functionOf (ih fun token h => hts token (by simp [h])) (by simp)
  | functionTo _ _ ih ihr =>
    have hresult := ihr fun token h => hts token (by simp [h])
    exact named_functionOf (ih fun token h => hts token (by simp [h]))
      (fun t ht => by cases ht; exact hresult)
  | key => simp [Phrase.Named]
  | field _ _ ih => simpa [Phrase.Named] using ih fun token h => hts token (by simp [h])
  | receiver | constructed => simp [Phrase.Named, Param.plain?]
  | plain _ ih => simpa [Phrase.Named, Param.plain?] using ih hts
  | one _ ih => exact ⟨ih hts, by simp⟩
  | more _ _ ih ihs =>
    obtain ⟨hb, hbs⟩ := ihs fun token h => hts token (by simp [h])
    exact ⟨ih fun token h => hts token (by simp [h]), List.forall_mem_cons.mpr ⟨hb, hbs⟩⟩
  | nil => simp [Phrase.Named]
  | last _ ih => simpa [Phrase.Named] using ih fun token h => hts token (by simp [h])
  | cons _ _ ih ihs =>
    exact List.forall_mem_cons.mpr ⟨ih fun token h => hts token (by simp [h]),
      ihs fun token h => hts token (by simp [h])⟩

/-! ## Deriving the alternatives -/

theorem not_startsModifier_nil : ¬ StartsModifier [] := by
  rintro ⟨m, hm⟩
  cases m <;> simp [Modifier.tokens] at hm

theorem not_startsModifier_mark {c : Char} (hc : c ∉ "=?![".toList) (us : List Token) :
    ¬ StartsModifier (.mark c :: us) := by
  rintro ⟨m, vs, hvs⟩
  refine hc ?_
  cases m <;> obtain rfl := Token.mark.inj (List.cons.inj hvs).1 <;> decide

theorem Derives.type_of_basic {ts rest : List Token} {t : TypeExpr} (h : Derives .basic ts rest t)
    (hrest : ¬ StartsModifier rest) : Derives .type ts rest t := by
  have hmodified := @Derives.modified ts rest t [] h hrest
  rwa [List.flatMap_nil, List.append_nil] at hmodified

/-- Whether tokens derive the given types, with bars between them. -/
def Lists (ts rest : List Token) (members : List TypeExpr) : Prop :=
  ∃ first more, members = first :: more ∧ Derives (.separated '|' .type) ts rest (first, more)

theorem Lists.top {ts rest : List Token} {members : List TypeExpr} (h : Lists ts rest members) :
    Derives .top ts rest (oneOf members) := by
  obtain ⟨first, more, rfl, h⟩ := h
  have htop := Derives.top h
  cases more <;> exact htop

theorem Lists.one {ts rest : List Token} {t : TypeExpr} (h : Derives .type ts rest t) :
    Lists ts rest [t] :=
  ⟨t, [], rfl, .one h⟩

/-- What is put before several alternatives goes to the first of them. -/
theorem Lists.onHead (lead : List Token) {f : TypeExpr → TypeExpr} {ts rest : List Token}
    {members : List TypeExpr}
    (hf : ∀ us rest t, ¬ StartsModifier rest → Derives .type us rest t →
      Derives .type (lead ++ us) rest (f t)) (hrest : ¬ StartsModifier rest)
    (h : Lists ts rest members) : Lists (lead ++ ts) rest (onHead f members) := by
  obtain ⟨first, more, rfl, h⟩ := h
  refine ⟨f first, more, rfl, ?_⟩
  cases h with
  | one h => exact .one (hf _ _ _ hrest h)
  | more h hs =>
    rw [← List.append_assoc]
    exact .more (hf _ _ _ (not_startsModifier_mark (by decide) _) h) hs

theorem separated_append {ts us rest : List Token} {a b : TypeExpr} {as bs : List TypeExpr}
    (h : Derives (.separated '|' .type) ts (.mark '|' :: us ++ rest) (a, as))
    (hs : Derives (.separated '|' .type) us rest (b, bs)) :
    Derives (.separated '|' .type) (ts ++ .mark '|' :: us) rest (a, as ++ b :: bs) := by
  induction as generalizing ts a with
  | nil =>
    cases h with
    | one h => exact .more h hs
  | cons a' as ih =>
    cases h with
    | @more _ _ ts₁ us₁ _ _ _ _ h htail =>
      have htail := ih htail
      have hassoc : Token.mark '|' :: us₁ ++ (.mark '|' :: us ++ rest)
          = .mark '|' :: (us₁ ++ .mark '|' :: us) ++ rest := by simp
      rw [hassoc] at h
      have hmore := Derives.more h htail
      simpa using hmore

theorem Lists.append {ts us rest : List Token} {ms ns : List TypeExpr}
    (h : Lists ts (.mark '|' :: us ++ rest) ms) (hs : Lists us rest ns) :
    Lists (ts ++ .mark '|' :: us) rest (ms ++ ns) := by
  obtain ⟨a, as, rfl, h⟩ := h
  obtain ⟨b, bs, rfl, hs⟩ := hs
  exact ⟨a, as ++ b :: bs, rfl, separated_append h hs⟩

theorem Derives.list_param {c : Char} {ts rest : List Token} {as : List TypeExpr}
    (h : Derives (.list c .top) ts rest as) : Derives (.list c .param) ts rest (as.map .plain) := by
  induction as generalizing ts with
  | nil =>
    cases h
    exact .nil
  | cons a as ih =>
    cases h with
    | last h => exact .last (.plain h)
    | cons h hs => exact .cons (.plain h) (ih hs)

theorem functionOf_map_plain (ts : List TypeExpr) (result : Option TypeExpr) :
    functionOf (ts.map .plain) result = .function ts result none none := by
  have hplain : (ts.map Param.plain).filterMap Param.plain? = ts := by
    rw [List.filterMap_map]
    exact List.filterMap_some
  have hreceiver : (ts.map Param.plain).filterMap Param.receiver? = [] := by
    simp [Param.receiver?]
  have hconstructed : (ts.map Param.plain).filterMap Param.constructed? = [] := by
    simp [Param.constructed?]
  rw [functionOf, hplain, hreceiver, hconstructed]
  rfl

/-! ## Reading the display form -/

/-- Whether the display form of a type is cut into tokens that derive its alternatives. -/
def Spelled (t : TypeExpr) : Prop :=
  ∃ ts, Token.Cuts t.format ts ∧ ∀ rest, ¬ StartsModifier rest → Lists ts rest t.flat

theorem spelled_each {types : List TypeExpr} (hne : types ≠ []) (h : ∀ t ∈ types, t.Spelled) :
    ∃ ts, Token.Cuts (Text.join "|" (types.map format)) ts ∧
      ∀ rest, ¬ StartsModifier rest → Lists ts rest (types.flatMap flat) := by
  induction types with
  | nil => exact absurd rfl hne
  | cons t types ih =>
    obtain ⟨ts, hts, hlists⟩ := h t (by simp)
    cases types with
    | nil =>
      refine ⟨ts, hts, fun rest hrest => ?_⟩
      rw [List.flatMap_singleton]
      exact hlists rest hrest
    | cons u types =>
      obtain ⟨us, hus, hlists'⟩ := ih (by simp) fun v hv => h v (List.mem_cons_of_mem _ hv)
      refine ⟨ts ++ .mark '|' :: us, ?_, ?_⟩
      · intro k ks hk hks
        have htail := hus k ks hk hks
        rw [List.map_cons, Text.join_cons (by simp), List.append_assoc, List.append_assoc,
          List.append_assoc]
        exact hts _ (.mark '|' :: us ++ ks) rfl (Token.tokens_mark (by decide) htail)
      · intro rest hrest
        rw [List.flatMap_cons]
        exact (hlists _ (not_startsModifier_mark (by decide) _)).append (hlists' rest hrest)

/-- The display forms of several types, with commas between them and a closing mark. -/
theorem spelled_list {c : Char} (hc : c = ')' ∨ c = ']') {types : List TypeExpr}
    (h : ∀ t ∈ types, t.Spelled) :
    ∃ ts, (∀ k ks, Token.tokens k = .ok ks →
        Token.tokens (Text.join ", " (types.map format) ++ c :: k) = .ok (ts ++ ks)) ∧
      ∀ rest, Derives (.list c .top) ts rest (types.map normal) := by
  have hmark : Token.isMark c := by rcases hc with rfl | rfl <;> decide
  have hend : ∀ k, Token.endsWord (c :: k) := by rcases hc with rfl | rfl <;> exact fun _ => rfl
  have hmod : ∀ us, ¬ StartsModifier (.mark c :: us) := by
    rcases hc with rfl | rfl <;> exact not_startsModifier_mark (by decide)
  induction types with
  | nil => exact ⟨[.mark c], fun k ks hks => Token.tokens_mark hmark hks, fun rest => .nil⟩
  | cons t types ih =>
    obtain ⟨ts, hts, hlists⟩ := h t (by simp)
    cases types with
    | nil =>
      refine ⟨ts ++ [.mark c], fun k ks hks => ?_, fun rest => ?_⟩
      · rw [List.append_assoc]
        exact hts _ _ (hend k) (Token.tokens_mark hmark hks)
      · exact .last (hlists _ (hmod rest)).top
    | cons u types =>
      obtain ⟨us, hus, hderives⟩ := ih fun v hv => h v (List.mem_cons_of_mem _ hv)
      refine ⟨ts ++ .mark ',' :: us, fun k ks hks => ?_, fun rest => ?_⟩
      · have htail := hus k ks hks
        rw [List.map_cons, Text.join_cons (by simp), List.append_assoc, List.append_assoc,
          List.append_assoc]
        have hblank := (Token.tokens_blank (c := ' ') (by decide) _).trans htail
        exact hts _ (.mark ',' :: us ++ ks) rfl (Token.tokens_mark (by decide) hblank)
      · exact .cons (hlists _ (not_startsModifier_mark (by decide) _)).top (hderives rest)

theorem nameOf?_eq_some {token : Token} {text : Text} (h : nameOf? token = some text) :
    token.text = text := by
  unfold nameOf? at h
  split at h
  · split at h
    · cases h
    · exact Option.some.inj h
  · exact Option.some.inj h
  · cases h

theorem spelled_all : all.Spelled :=
  ⟨[.mark '*'], fun k ks _ hks => Token.tokens_mark (by decide) hks,
    fun rest hrest => .one (Derives.all.type_of_basic hrest)⟩

/-- **The display form of a plain type derives its alternatives.** -/
theorem Plain.spelled {t : TypeExpr} (h : t.Plain) (hn : t.Named) : t.Spelled := by
  induction t using induction_parts with
  | name text =>
    obtain ⟨token, hname, hread⟩ := hn _ .self
    refine ⟨[token], ?_, fun rest hrest => .one ((Derives.name hname).type_of_basic hrest)⟩
    rw [format_name, ← nameOf?_eq_some hname]
    exact hread.cuts
  | all => exact spelled_all
  | null =>
    refine ⟨[.word "null"], ?_, fun rest hrest => .one (Derives.null.type_of_basic hrest)⟩
    exact (Token.readable_word "null" (by simp)).cuts
  | nullable inner ih =>
    obtain ⟨ts, hts, hlists⟩ := ih (h.part (.nullable .self)) (hn.part (.nullable .self))
    refine ⟨.mark '?' :: ts, fun k ks hk hks => ?_, fun rest hrest => ?_⟩
    · rw [format_nullable]
      exact Token.tokens_mark (by decide) (hts k ks hk hks)
    · exact (hlists rest hrest).onHead [.mark '?'] (fun _ _ _ _ h => .nullable h) hrest
  | optional inner => exact absurd .self (h.noOptional inner)
  | union members ih =>
    have hne : members ≠ [] := by
      rintro rfl
      exact h.noEmptyUnion .self
    obtain ⟨ts, hts, hlists⟩ := spelled_each hne fun t ht =>
      ih t ht (h.part (.member ht .self)) (hn.part (.member ht .self))
    refine ⟨ts, by rwa [format_union], fun rest hrest => ?_⟩
    rw [flat, flatEach_eq_flatMap]
    exact hlists rest hrest
  | variadic inner ih =>
    obtain ⟨ts, hts, hlists⟩ := getD_all (motive := Spelled) spelled_all fun t ht =>
      ih t ht (h.part (by cases ht; exact .variadic .self))
        (hn.part (by cases ht; exact .variadic .self))
    refine ⟨.ellipsis :: ts, fun k ks hk hks => ?_, fun rest hrest => ?_⟩
    · rw [format_variadic, List.append_assoc]
      exact Token.tokens_ellipsis (hts k ks hk hks)
    · rw [flat, flatOption_eq]
      exact (hlists rest hrest).onHead [.ellipsis] (fun _ _ _ _ h => .variadic h) hrest
  | array items ih =>
    obtain ⟨ts, hts, hderives⟩ := spelled_list (.inr rfl) fun t ht =>
      ih t ht (h.part (.item ht .self)) (hn.part (.item ht .self))
    refine ⟨.mark '[' :: ts, fun k ks hk hks => ?_, fun rest hrest => ?_⟩
    · rw [format_array, List.append_assoc, List.append_assoc]
      exact Token.tokens_mark (by decide) (hts k ks hks)
    · rw [flat, normalEach_eq_map]
      exact .one ((Derives.array (hderives rest)).type_of_basic hrest)
  | application base arguments _ ih =>
    obtain ⟨⟨text, rfl⟩, hne⟩ := hn _ .self
    obtain ⟨token, hname, hread⟩ := hn _ (.base .self)
    obtain ⟨ts, hts, hlists⟩ := spelled_each hne fun t ht =>
      ih t ht (h.part (.argument ht .self)) (hn.part (.argument ht .self))
    refine ⟨token :: .opening :: ts ++ [.mark '>'], fun k ks hk hks => ?_, fun rest hrest => ?_⟩
    · have hclose : Token.tokens (">" ++ k) = .ok (.mark '>' :: ks) :=
        Token.tokens_mark (by decide) hks
      have harguments := Token.tokens_opening (hts _ _ rfl hclose)
      have hall := hread.cuts _ _ rfl harguments
      rw [nameOf?_eq_some hname] at hall
      rw [format_application, format_name]
      simpa using hall
    · -- The arguments are listed like the members of a union, so one argument is read.
      rw [flat, flatEach_eq_flatMap]
      have htop := (hlists _ (not_startsModifier_mark (c := '>') (by decide) rest)).top
      exact .one ((Derives.application hname (.inl rfl) (.one htop)).type_of_basic hrest)
  | record fields => exact absurd .self (h.noRecord fields)
  | function params result receiver constructed ihp ihr =>
    obtain ⟨ts, hts, hderives⟩ := spelled_list (.inl rfl) fun t ht =>
      ihp t ht (h.part (.param ht .self)) (hn.part (.param ht .self))
    obtain ⟨us, hus, hlists⟩ := getD_all (motive := Spelled) spelled_all fun t ht =>
      ihr t ht (h.part (by cases ht; exact .result .self))
        (hn.part (by cases ht; exact .result .self))
    refine ⟨(.word "function" :: .mark '(' :: ts ++ [.mark ':']) ++ us, fun k ks hk hks => ?_,
      fun rest hrest => ?_⟩
    · have hresult : Token.tokens (":" ++ ((result.getD all).format ++ k))
          = .ok (.mark ':' :: us ++ ks) :=
        Token.tokens_mark (by decide) (hus k ks hk hks)
      have hparams := Token.tokens_mark (c := '(') (by decide) (hts _ _ hresult)
      have hword : (Token.word "function").Readable := Token.readable_word _ (by simp)
      have hall := hword.cuts _ _ rfl hparams
      rw [format_function]
      simpa [Token.text] using hall
    · -- The result stands last, so the function ends with its first alternative.
      rw [flat, flatOption_eq, normalEach_eq_map]
      refine (hlists rest hrest).onHead _ (fun vs rest t hrest hvs => ?_) hrest
      have hfunction := Derives.functionTo (hderives _).list_param hvs
      rw [functionOf_map_plain] at hfunction
      simpa using hfunction.type_of_basic hrest

/-- **Display forms are a fixed point of reading and displaying.** If a type was read from a text,
its display form is read as its normal form, and displays as the same text again. -/
theorem parse_format_of_parse {source : Text} {t : TypeExpr} (h : parse source = .ok t)
    (hp : t.Plain) :
    t.flat ≠ [] ∧ parse t.format = .ok t.normal ∧ (parse t.format).map format = .ok t.format := by
  obtain ⟨ts, hts, -, hderives⟩ := parse_eq_ok_iff.mp h
  have hnamed : t.Named := hderives.named (Token.readable_of_mem_tokens hts)
  obtain ⟨us, hus, hlists⟩ := hp.spelled hnamed
  have hcut : Token.tokens t.format = .ok us := by simpa using hus [] [] rfl rfl
  have htop := (hlists [] not_startsModifier_nil).top
  obtain ⟨token, vs, hvs, -⟩ := htop.exists_head trivial
  have hparse : parse t.format = .ok t.normal :=
    parse_eq_ok_iff.mpr ⟨us, hcut, by rw [hvs]; exact List.cons_ne_nil token vs, htop⟩
  refine ⟨hp.faithful.flat_ne_nil, hparse, ?_⟩
  rw [hparse]
  exact congrArg Except.ok hp.faithful.format_normal

/-- The type that `function(this:{c}):(a|b)` denotes: its record is not shown, and the parentheses
of its result are lost. -/
def functionToUnion : TypeExpr :=
  .function [] (some (.union [.name "a", .name "b"])) (some (.record [("c", none)])) none

theorem shows_functionToUnion {u : TypeExpr} (h : functionToUnion.Shows u) :
    u = functionToUnion ∨ u = .union [.name "a", .name "b"] ∨ u = .name "a" ∨ u = .name "b" := by
  cases h with
  | self => exact .inl rfl
  | param hmem => cases hmem
  | result h =>
    cases h with
    | self => exact .inr (.inl rfl)
    | member hmem h =>
      simp only [List.mem_cons, List.not_mem_nil, or_false] at hmem
      rcases hmem with rfl | rfl <;> cases h <;> simp

theorem parse_format_functionToUnion :
    parse "function(this:\x7bc\x7d):(a|b)" = .ok functionToUnion ∧ functionToUnion.Plain ∧
      parse "function():a|b"
        = .ok (.union [.function [] (some (.name "a")) none none, .name "b"]) := by
  have hparse : parse "function(this:\x7bc\x7d):(a|b)" = .ok functionToUnion := rfl
  have hplain : functionToUnion.Plain :=
    ⟨fun fields h => by simpa [functionToUnion] using shows_functionToUnion h,
      fun inner h => by simpa [functionToUnion] using shows_functionToUnion h,
      fun h => by simpa [functionToUnion] using shows_functionToUnion h⟩
  exact ⟨hparse, hplain, (parse_format_of_parse hparse hplain).2.1⟩

end DocModel.TypeExpr
