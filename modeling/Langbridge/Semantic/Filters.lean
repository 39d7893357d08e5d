/-
Filters of the semantic query compiler (`_build_filter_expression` of `semantic/query/translator.py`): an operator and a
list of values become a predicate on a column. What an operator names is stated apart from it: membership, a text found
somewhere, a comparison, a date range or a null.
-/
import Langbridge.Core.Like
import Langbridge.Semantic.DateRanges

namespace Langbridge.Semantic.Filters

open Core Core.Like Semantic.DateRanges List

/-! ## Predicates -/

inductive FilterOperator
  | equals | notEquals | contains | notContains | startsWith | endsWith | gt | gte | lt | lte | beforeDate | afterDate
  | inDateRange | notInDateRange | set | notSet | isIn | notIn
deriving DecidableEq

inductive Inequality
  | gt | gte | lt | lte
deriving DecidableEq

/-- the condition on the filtered expression -/
inductive Predicate
  | eq (l : Literal)
  | neq (l : Literal)
  | isIn (ls : List Literal)
  | notIn (ls : List Literal)
  | like (pattern : String)
  | notLike (pattern : String)
  | compare (op : Inequality) (l : Literal)
  | range (c : RangeCondition)
  | notRange (c : RangeCondition)
  | isNull
  | notNull
deriving DecidableEq

/-- how a filter fails: a `SemanticQueryError`, an `IndexError` or a `ValueError` -/
inductive FilterError
  | query (message : String)
  | index
  | value (e : ValueError)
deriving DecidableEq

/-- the spellings of the operators -/
def operatorNames : List (String × FilterOperator) :=
  [("equals", .equals), ("equal", .equals), ("eq", .equals), ("notequals", .notEquals), ("not_equals", .notEquals),
    ("ne", .notEquals), ("contains", .contains), ("notcontains", .notContains), ("startswith", .startsWith),
    ("endswith", .endsWith), ("gt", .gt), ("greater", .gt), ("gte", .gte), ("gteq", .gte), ("greater_or_equal", .gte),
    ("lt", .lt), ("less", .lt), ("lte", .lte), ("lteq", .lte), ("less_or_equal", .lte), ("beforedate", .beforeDate),
    ("afterdate", .afterDate), ("indaterange", .inDateRange), ("notindaterange", .notInDateRange), ("set", .set),
    ("notset", .notSet), ("in", .isIn), ("notin", .notIn)]

/-- `values[0]` -/
def firstOf {α : Type} : List α → Except FilterError α
  | a :: _ => .ok a
  | [] => .error .index

/-- one value is a range by itself, several are its bounds -/
def rangeOf : List String → DateRange
  | [value] => .text value
  | values => .list values

section Building

variable [PyNumerals] (values : List String) (dataType : Option String) (dialect : String)

def operatorOf (operator : String) : Option FilterOperator := operatorNames.lookup (PyText.norm operator)

def formattedValues : List Literal := values.map fun v => formatLiteral v dataType dialect

/-- `build_date_range_condition` of the values -/
def dateRangeOf : Except FilterError RangeCondition :=
  (buildDateRangeCondition (rangeOf values) dataType dialect).mapError .value

def buildFilterExpression (operator : String) : Except FilterError Predicate :=
  let formatted := formattedValues values dataType dialect
  match operatorOf operator with
  | some .equals => .ok (match formatted with
    | [l] => .eq l
    | ls => .isIn ls)
  | some .notEquals => .ok (match formatted with
    | [l] => .neq l
    | ls => .notIn ls)
  | some .contains => (firstOf values).map fun v => .like ("%" ++ v ++ "%")
  | some .notContains => (firstOf values).map fun v => .notLike ("%" ++ v ++ "%")
  | some .startsWith => (firstOf values).map fun v => .like (v ++ "%")
  | some .endsWith => (firstOf values).map fun v => .like ("%" ++ v)
  | some .gt => (firstOf formatted).map (.compare .gt)
  | some .gte => (firstOf formatted).map (.compare .gte)
  | some .lt => (firstOf formatted).map (.compare .lt)
  | some .lte => (firstOf formatted).map (.compare .lte)
  | some .beforeDate => (firstOf formatted).map (.compare .lt)
  | some .afterDate => (firstOf formatted).map (.compare .gt)
  | some .inDateRange => (dateRangeOf values dataType dialect).map .range
  | some .notInDateRange => (dateRangeOf values dataType dialect).map .notRange
  | some .set => .ok .notNull
  | some .notSet => .ok .isNull
  | some .isIn => .ok (.isIn formatted)
  | some .notIn => .ok (.notIn formatted)
  | none => .error (.query ("Unsupported filter operator '" ++ operator ++ "'."))

end Building

/-! ## Rows -/

/-- an engine that evaluates predicates: which values are null, the text it matches patterns against, and how it
compares a value that is not null with literals and date ranges -/
structure RowEngine (V : Type) where
  null : V → Bool
  text : V → List Char
  equal : V → Literal → Bool
  compare : Inequality → V → Literal → Bool
  inRange : V → RangeCondition → Bool

/-- the tokens of a pattern -/
def tokenOf (c : Char) : Token Char := if c = '%' then .any else if c = '_' then .one else .char c

def tokens (pattern : String) : List (Token Char) := pattern.toList.map tokenOf

/-- the predicate is true of a value; of a null only the null test is -/
def Predicate.holds {V : Type} (E : RowEngine V) (x : V) : Predicate → Bool
  | .eq l => !E.null x && E.equal x l
  | .neq l => !E.null x && !E.equal x l
  | .isIn ls => !E.null x && ls.any (E.equal x)
  | .notIn ls => !E.null x && !ls.any (E.equal x)
  | .like pattern => !E.null x && Like.like (tokens pattern) (E.text x)
  | .notLike pattern => !E.null x && !Like.like (tokens pattern) (E.text x)
  | .compare op l => !E.null x && E.compare op x l
  | .range c => !E.null x && E.inRange x c
  | .notRange c => !E.null x && !E.inRange x c
  | .isNull => E.null x
  | .notNull => !E.null x

/-! ## What the operators name -/

/-- what an operator means; the flag says whether it or its negation -/
inductive Meaning
  | member (yes : Bool)
  | found (place : Place) (yes : Bool)
  | compared (op : Inequality)
  | ranged (yes : Bool)
  | present (yes : Bool)

def FilterOperator.meaning : FilterOperator → Meaning
  | .equals | .isIn => .member true
  | .notEquals | .notIn => .member false
  | .contains => .found .anywhere true
  | .notContains => .found .anywhere false
  | .startsWith => .found .start true
  | .endsWith => .found .stop true
  | .gt | .afterDate => .compared .gt
  | .gte => .compared .gte
  | .lt | .beforeDate => .compared .lt
  | .lte => .compared .lte
  | .inDateRange => .ranged true
  | .notInDateRange => .ranged false
  | .set => .present true
  | .notSet => .present false

section Meanings

variable [PyNumerals] (values : List String) (dataType : Option String) (dialect : String)

/-- the literal that a value stands for under the type, if it is one of the type -/
def denotes (value : String) : Option Literal :=
  if normalizedType dataType ∈ booleanTypes then (truthOf value).map (truthLiteral dialect)
  else if normalizedType dataType ∈ numericTypes then
    if PyNumerals.isFloat value then some (.number value) else none
  else some (.string value)

/-- some value stands for a literal that equals the row's -/
def IsMember {V : Type} (E : RowEngine V) (x : V) : Prop :=
  ∃ v ∈ values, ∃ l, denotes dataType dialect v = some l ∧ E.equal x l = true

def Meaning.Names {V : Type} (E : RowEngine V) (x : V) : Meaning → Prop
  | .member yes => E.null x = false ∧ (IsMember values dataType dialect E x ↔ yes = true)
  | .found place yes => E.null x = false ∧ ((∃ v ∈ values, place.Found v.toList (E.text x)) ↔ yes = true)
  | .compared op =>
    E.null x = false ∧ ∃ v l, values = [v] ∧ denotes dataType dialect v = some l ∧ E.compare op x l = true
  | .ranged yes =>
    E.null x = false ∧ ((∃ c, dateRangeOf values dataType dialect = .ok c ∧ E.inRange x c = true) ↔ yes = true)
  | .present yes => E.null x = false ↔ yes = true

/-- the values are a list that the operator can use -/
def Meaning.Usable : Meaning → Prop
  | .member _ => values ≠ [] ∧ ∀ v ∈ values, ∃ l, denotes dataType dialect v = some l
  | .found _ _ => values ≠ []
  | .compared _ => ∃ v l, values = [v] ∧ denotes dataType dialect v = some l
  | .ranged _ => ∃ c, dateRangeOf values dataType dialect = .ok c
  | .present _ => True

/-- **What the filter promises**: of a list that the operator can use it makes a predicate that is true of the rows that
the operator names; of others, and for other operators, a semantic error. -/
def Faithful (operator : String) : Prop :=
  let built := buildFilterExpression values dataType dialect operator
  match operatorOf operator with
  | none => ∃ message, built = .error (.query message)
  | some op =>
    (op.meaning.Usable values dataType dialect → ∃ p, built = .ok p ∧
      ∀ (V : Type) (E : RowEngine V) (x : V), p.holds E x = true ↔ op.meaning.Names values dataType dialect E x) ∧
    (¬op.meaning.Usable values dataType dialect → ∃ message, built = .error (.query message))

/-- the first value is the text that is looked for, up to `%` where something may stand, and holds no pattern characters
else; it is among the values, and is found in each of them -/
def FirstIsLeast (place : Place) : Prop :=
  ∃ first rest, values = first :: rest ∧
    ∃ s ∈ values, place.Plain (tokens first) s.toList ∧ ∀ v ∈ values, place.Found s.toList v.toList

/-- the lists for which the promise is kept -/
def Meaning.Clean : Meaning → Prop
  | .found place _ => FirstIsLeast values place
  | m => m.Usable values dataType dialect

/-! ## What is built -/

def Meaning.Builds (built : Except FilterError Predicate) : Meaning → Prop
  | .member yes => ∃ p, built = .ok p ∧ ∀ (V : Type) (E : RowEngine V) (x : V), p.holds E x = true ↔
      E.null x = false ∧ ((∃ v ∈ values, E.equal x (formatLiteral v dataType dialect) = true) ↔ yes = true)
  | .found place yes => (values = [] → built = .error .index) ∧ ∀ v rest, values = v :: rest → ∃ p, built = .ok p ∧
      ∀ (V : Type) (E : RowEngine V) (x : V), p.holds E x = true ↔
        E.null x = false ∧ (Like.like (place.pattern (tokens v)) (E.text x) = true ↔ yes = true)
  | .compared op => (values = [] → built = .error .index) ∧ ∀ v rest, values = v :: rest →
      built = .ok (.compare op (formatLiteral v dataType dialect))
  | .ranged yes => (∀ c, dateRangeOf values dataType dialect = .ok c → ∃ p, built = .ok p ∧
      ∀ (V : Type) (E : RowEngine V) (x : V), p.holds E x = true ↔
        E.null x = false ∧ (E.inRange x c = true ↔ yes = true)) ∧
      ∀ e, dateRangeOf values dataType dialect = .error e → built = .error e
  | .present yes => ∃ p, built = .ok p ∧ ∀ (V : Type) (E : RowEngine V) (x : V), p.holds E x = true ↔
      (E.null x = false ↔ yes = true)

omit [PyNumerals] in
theorem holds_positive {b c : Bool} : (!b && c) = true ↔ b = false ∧ (c = true ↔ true = true) := by
  simp

omit [PyNumerals] in
theorem holds_negative {b c : Bool} : (!b && !c) = true ↔ b = false ∧ (c = true ↔ false = true) := by
  simp

theorem any_formattedValues {V : Type} (E : RowEngine V) (x : V) :
    (formattedValues values dataType dialect).any (E.equal x) = true ↔
      ∃ v ∈ values, E.equal x (formatLiteral v dataType dialect) = true := by
  simp [formattedValues]

omit [PyNumerals] in
theorem tokens_contains (v : String) : tokens ("%" ++ v ++ "%") = Place.anywhere.pattern (tokens v) := by
  simp [tokens, Place.pattern, tokenOf]

omit [PyNumerals] in
theorem tokens_startsWith (v : String) : tokens (v ++ "%") = Place.start.pattern (tokens v) := by
  simp [tokens, Place.pattern, tokenOf]

omit [PyNumerals] in
theorem tokens_endsWith (v : String) : tokens ("%" ++ v) = Place.stop.pattern (tokens v) := by
  simp [tokens, Place.pattern, tokenOf]

variable {values dataType dialect}

variable {yes : Bool} {built : Except FilterError Predicate}

theorem builds_member (one : Literal → Predicate) (several : List Literal → Predicate)
    (hone : ∀ (V : Type) (E : RowEngine V) (x : V) l, (one l).holds E x = (several [l]).holds E x)
    (hseveral : ∀ (V : Type) (E : RowEngine V) (x : V) ls, (several ls).holds E x = true ↔
      E.null x = false ∧ (ls.any (E.equal x) = true ↔ yes = true))
    (hbuilt : built = .ok (match formattedValues values dataType dialect with
      | [l] => one l
      | ls => several ls)) :
    (Meaning.member yes).Builds values dataType dialect built := by
  refine ⟨_, hbuilt, fun V E x => ?_⟩
  rw [← any_formattedValues, ← hseveral V E x]
  split
  · rename_i l hl
    rw [hl, hone]
  · rfl

theorem builds_found {place : Place} (pattern : String → String)
    (predicate : String → Predicate) (htokens : ∀ v, tokens (pattern v) = place.pattern (tokens v))
    (hpredicate : ∀ (V : Type) (E : RowEngine V) (x : V) p, (predicate p).holds E x = true ↔
      E.null x = false ∧ (Like.like (tokens p) (E.text x) = true ↔ yes = true))
    (hbuilt : built = (firstOf values).map fun v => predicate (pattern v)) :
    (Meaning.found place yes).Builds values dataType dialect built := by
  refine ⟨?_, ?_⟩
  · rintro rfl
    exact hbuilt
  · rintro v rest rfl
    refine ⟨_, hbuilt, fun V E x => ?_⟩
    rw [hpredicate, htokens]

theorem builds_compared {op : Inequality}
    (hbuilt : built = (firstOf (formattedValues values dataType dialect)).map (.compare op)) :
    (Meaning.compared op).Builds values dataType dialect built := by
  refine ⟨?_, ?_⟩
  · rintro rfl
    exact hbuilt
  · rintro v rest rfl
    exact hbuilt

theorem builds_ranged (predicate : RangeCondition → Predicate)
    (hpredicate : ∀ (V : Type) (E : RowEngine V) (x : V) c, (predicate c).holds E x = true ↔
      E.null x = false ∧ (E.inRange x c = true ↔ yes = true))
    (hbuilt : built = (dateRangeOf values dataType dialect).map predicate) :
    (Meaning.ranged yes).Builds values dataType dialect built := by
  refine ⟨?_, ?_⟩
  · intro c hc
    rw [hc] at hbuilt
    exact ⟨_, hbuilt, fun V E x => hpredicate V E x c⟩
  · intro e he
    rw [he] at hbuilt
    exact hbuilt

/-- **The operators, by what they mean.** -/
theorem buildFilterExpression_eq {operator : String} {op : FilterOperator} (h : operatorOf operator = some op) :
    op.meaning.Builds values dataType dialect (buildFilterExpression values dataType dialect operator) := by
  rw [buildFilterExpression, h]
  have hlike : ∀ (V : Type) (E : RowEngine V) (x : V) p, (Predicate.like p).holds E x = true ↔
      E.null x = false ∧ (Like.like (tokens p) (E.text x) = true ↔ true = true) := fun V E x p => holds_positive
  have hin : ∀ (V : Type) (E : RowEngine V) (x : V) ls, (Predicate.isIn ls).holds E x = true ↔
      E.null x = false ∧ (ls.any (E.equal x) = true ↔ true = true) := fun V E x ls => holds_positive
  have hnotIn : ∀ (V : Type) (E : RowEngine V) (x : V) ls, (Predicate.notIn ls).holds E x = true ↔
      E.null x = false ∧ (ls.any (E.equal x) = true ↔ false = true) := fun V E x ls => holds_negative
  cases op with
  | equals =>
    exact builds_member .eq .isIn (fun V E x l => by simp [Predicate.holds]) hin rfl
  | notEquals =>
    exact builds_member .neq .notIn (fun V E x l => by simp [Predicate.holds]) hnotIn rfl
  | isIn => exact ⟨_, rfl, fun V E x => by rw [hin, any_formattedValues]⟩
  | notIn => exact ⟨_, rfl, fun V E x => by rw [hnotIn, any_formattedValues]⟩
  | contains => exact builds_found (fun v => "%" ++ v ++ "%") .like tokens_contains hlike rfl
  | notContains =>
    exact builds_found (fun v => "%" ++ v ++ "%") .notLike tokens_contains (fun V E x p => holds_negative) rfl
  | startsWith => exact builds_found (fun v => v ++ "%") .like tokens_startsWith hlike rfl
  | endsWith => exact builds_found (fun v => "%" ++ v) .like tokens_endsWith hlike rfl
  | gt => exact builds_compared rfl
  | gte => exact builds_compared rfl
  | lt => exact builds_compared rfl
  | lte => exact builds_compared rfl
  | beforeDate => exact builds_compared rfl
  | afterDate => exact builds_compared rfl
  | inDateRange => exact builds_ranged .range (fun V E x c => holds_positive) rfl
  | notInDateRange => exact builds_ranged .notRange (fun V E x c => holds_negative) rfl
  | set => exact ⟨_, rfl, fun V E x => by simp [Predicate.holds]⟩
  | notSet => exact ⟨_, rfl, fun V E x => by simp [Predicate.holds]⟩

/-! ## The promise -/

/-- a value of the type is formatted as the literal that it stands for -/
theorem formatLiteral_of_denotes {v : String} {l : Literal} (h : denotes dataType dialect v = some l) :
    formatLiteral v dataType dialect = l := by
  rw [denotes] at h
  rw [formatLiteral]
  split_ifs at h with hboolean hnumeric hfloat
  · obtain ⟨b, hb, rfl⟩ := Option.map_eq_some_iff.1 h
    rw [if_pos hboolean, hb]
  · rw [if_neg hboolean, if_pos ⟨hnumeric, hfloat⟩]
    exact Option.some.inj h
  · rw [if_neg hboolean, if_neg fun hboth => hnumeric hboth.1]
    exact Option.some.inj h

theorem isMember_iff (husable : ∀ v ∈ values, ∃ l, denotes dataType dialect v = some l) {V : Type} (E : RowEngine V)
    (x : V) : (∃ v ∈ values, E.equal x (formatLiteral v dataType dialect) = true) ↔
      IsMember values dataType dialect E x := by
  apply Iff.intro
  · rintro ⟨v, hv, hequal⟩
    obtain ⟨l, hl⟩ := husable v hv
    exact ⟨v, hv, l, hl, formatLiteral_of_denotes hl ▸ hequal⟩
  · rintro ⟨v, hv, l, hl, hequal⟩
    exact ⟨v, hv, (formatLiteral_of_denotes hl).symm ▸ hequal⟩

omit [PyNumerals] in
theorem like_first {place : Place} {first : String} {s : String} (hs : s ∈ values)
    (hplain : place.Plain (tokens first) s.toList) (hall : ∀ v ∈ values, place.Found s.toList v.toList)
    (text : List Char) :
    Like.like (place.pattern (tokens first)) text = true ↔ ∃ v ∈ values, place.Found v.toList text := by
  rw [like_pattern_of_plain hplain]
  exact ⟨fun h => ⟨s, hs, h⟩, fun ⟨v, hv, h⟩ => found_trans place (hall v hv) h⟩

variable {m : Meaning}

theorem usable_of_clean (h : m.Clean values dataType dialect) : m.Usable values dataType dialect := by
  cases m with
  | found place yes =>
    obtain ⟨first, rest, rfl, -⟩ := h
    exact cons_ne_nil first rest
  | member yes => exact h
  | compared op => exact h
  | ranged yes => exact h
  | present yes => exact h

/-- **For the clean lists** the predicate is true of the rows that the operator names. -/
theorem faithful_of_clean
    (hbuilds : m.Builds values dataType dialect built) (hclean : m.Clean values dataType dialect) :
    ∃ p, built = .ok p ∧ ∀ (V : Type) (E : RowEngine V) (x : V),
      p.holds E x = true ↔ m.Names values dataType dialect E x := by
  cases m with
  | member yes =>
    obtain ⟨p, hp, hholds⟩ := hbuilds
    refine ⟨p, hp, fun V E x => ?_⟩
    rw [hholds, isMember_iff hclean.2]
    rfl
  | found place yes =>
    obtain ⟨first, rest, hvalues, s, hs, hplain, hall⟩ := hclean
    obtain ⟨p, hp, hholds⟩ := hbuilds.2 first rest hvalues
    refine ⟨p, hp, fun V E x => ?_⟩
    rw [hholds, like_first hs hplain hall]
    rfl
  | compared op =>
    obtain ⟨v, l, hvalues, hl⟩ := hclean
    refine ⟨_, hbuilds.2 v [] hvalues, fun V E x => ?_⟩
    rw [formatLiteral_of_denotes hl, Predicate.holds, Bool.and_eq_true, Bool.not_eq_true']
    apply and_congr_right
    intro _
    apply Iff.intro
    · exact fun h => ⟨v, l, hvalues, hl, h⟩
    · rintro ⟨v', l', hvalues', hl', h⟩
      obtain ⟨rfl, -⟩ := List.cons.inj (hvalues.symm.trans hvalues')
      exact Option.some.inj (hl.symm.trans hl') ▸ h
  | ranged yes =>
    obtain ⟨c, hc⟩ := hclean
    obtain ⟨p, hp, hholds⟩ := hbuilds.1 c hc
    refine ⟨p, hp, fun V E x => ?_⟩
    rw [hholds]
    have hrange : (∃ c', dateRangeOf values dataType dialect = .ok c' ∧ E.inRange x c' = true) ↔
        E.inRange x c = true := by
      apply Iff.intro
      · rintro ⟨c', hc', h⟩
        exact Except.ok.inj (hc.symm.trans hc') ▸ h
      · exact fun h => ⟨c, hc, h⟩
    rw [Meaning.Names, hrange]
  | present yes => exact hbuilds

/-- an unusable list is not refused with a semantic error -/
theorem not_query_of_builds
    (hbuilds : m.Builds values dataType dialect built) (message : String) : built ≠ .error (.query message) := by
  intro hquery
  cases m with
  | member yes =>
    obtain ⟨p, hp, -⟩ := hbuilds
    rw [hp] at hquery
    cases hquery
  | found place yes =>
    cases hvalues : values with
    | nil =>
      rw [hbuilds.1 hvalues] at hquery
      cases hquery
    | cons v rest =>
      obtain ⟨p, hp, -⟩ := hbuilds.2 v rest hvalues
      rw [hp] at hquery
      cases hquery
  | compared op =>
    cases hvalues : values with
    | nil =>
      rw [hbuilds.1 hvalues] at hquery
      cases hquery
    | cons v rest =>
      rw [hbuilds.2 v rest hvalues] at hquery
      cases hquery
  | ranged yes =>
    cases hrange : dateRangeOf values dataType dialect with
    | ok c =>
      obtain ⟨p, hp, -⟩ := hbuilds.1 c hrange
      rw [hp] at hquery
      cases hquery
    | error e =>
      rw [hbuilds.2 e hrange] at hquery
      rw [dateRangeOf] at hrange
      cases hbuild : buildDateRangeCondition (rangeOf values) dataType dialect with
      | ok c =>
        rw [hbuild] at hrange
        cases hrange
      | error e' =>
        rw [hbuild] at hrange
        cases hrange
        cases hquery
  | present yes =>
    obtain ⟨p, hp, -⟩ := hbuilds
    rw [hp] at hquery
    cases hquery

/-- values that are their texts -/
def textEngine : RowEngine (List Char) := ⟨fun _ => false, id, fun _ _ => false, fun _ _ _ => false, fun _ _ => false⟩

/-- **Only for them**, where some character is in none of the values. -/
theorem clean_of_faithful (hbuilds : m.Builds values dataType dialect built) (hspare : ∃ c, ∀ v ∈ values, c ∉ v.toList)
    (husable : m.Usable values dataType dialect)
    (hfaithful : ∃ p, built = .ok p ∧ ∀ (V : Type) (E : RowEngine V) (x : V),
      p.holds E x = true ↔ m.Names values dataType dialect E x) : m.Clean values dataType dialect := by
  cases m with
  | member yes => exact husable
  | compared op => exact husable
  | ranged yes => exact husable
  | present yes => exact husable
  | found place yes =>
    obtain ⟨first, rest, hvalues⟩ := exists_cons_of_ne_nil husable
    obtain ⟨p, hp, hnames⟩ := hfaithful
    obtain ⟨p', hp', hholds⟩ := hbuilds.2 first rest hvalues
    obtain rfl := Except.ok.inj (hp.symm.trans hp')
    have hlike : ∀ text, Like.like (place.pattern (tokens first)) text = true ↔
        ∃ v ∈ values.map String.toList, place.Found v text := by
      intro text
      have h := (hholds _ textEngine text).symm.trans (hnames _ textEngine text)
      simp only [textEngine, Meaning.Names, true_and, id_eq] at h
      cases yes with
      | true => simpa using h
      | false => exact not_iff_not.1 (by simpa using h)
    have hspare' : ∃ c, ∀ v ∈ values.map String.toList, c ∉ v := by
      obtain ⟨c, hc⟩ := hspare
      refine ⟨c, fun v hv => ?_⟩
      obtain ⟨v', hv', rfl⟩ := mem_map.1 hv
      exact hc v' hv'
    obtain ⟨s, hs, hplain, hall⟩ := (like_values_iff hspare').1 hlike
    obtain ⟨value, hvalue, rfl⟩ := mem_map.1 hs
    exact ⟨first, rest, hvalues, value, hvalue, hplain, fun v hv => hall _ (mem_map_of_mem hv)⟩

variable (values dataType dialect)

end Meanings

/-! ## Half of the percent signs -/

section Percent

open scoped Ascii

end Percent

end Langbridge.Semantic.Filters
