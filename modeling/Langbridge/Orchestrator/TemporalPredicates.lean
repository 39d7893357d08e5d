/-
Casts of temporal columns (`orchestrator/tools/sql_analyst/tool.py`): a column reference in a comparison is wrapped in a
cast if its qualifier and name, or else its name alone, are known as a temporal column. The qualifier is taken as it is
written: aliases of the query are not resolved, and a column that is not temporal is found by its name alone.
-/
import Langbridge.Core.Dict
import Langbridge.Orchestrator.CanonicalSql

namespace Langbridge.Orchestrator.TemporalPredicates

open Core Phrases CanonicalSql List Dict

/-! ## The context -/

/-- `AnalyticalDatasetBinding`: its columns with their data types -/
structure Dataset where
  sqlAlias : String
  columns : List (String × String)

structure SemanticTable where
  key : String
  dimensions : List (String × String)

structure Context where
  datasets : List Dataset
  semanticModel : Option (List SemanticTable)

inductive CastTarget where
  | date
  | timestamp
  deriving DecidableEq

def CastTarget.sql : CastTarget → String
  | .date => "DATE"
  | .timestamp => "TIMESTAMP"

section Pass

variable [PyText]

open PyText

def temporalTypeNames : List String := ["date", "datetime", "time", "timestamp", "timestamptz"]

def namesTimestamp (normalized : String) : Bool := decide ("timestamp".toList <:+: normalized.toList)

def castTargetForType (dataType : String) : Option CastTarget :=
  let normalized := norm dataType
  if normalized = "" then none
  else if normalized = "date" then some .date
  else if normalized ∈ temporalTypeNames ∨ namesTimestamp normalized then some .timestamp
  else none

/-- `str(name or "").strip().lower() or None` -/
def tableKey (name : String) : Option String := if norm name = "" then none else some (norm name)

/-- the tables of a context with their columns and types, in the order in which they are read -/
def Context.tables (ctx : Context) : List (String × List (String × String)) :=
  (ctx.datasets.map fun d => (d.sqlAlias, d.columns)) ++
    (ctx.semanticModel.getD []).map fun t => (t.key, t.dimensions)

/-- the entry of a column in `columns` and in `unqualified_targets`, if it is temporal -/
def entryOf (name : String) (column : String × String) : Option ((Option String × String) × CastTarget) :=
  (castTargetForType column.2).bind fun target =>
    if norm column.1 = "" then none else some ((tableKey name, norm column.1), target)

def Context.entries (ctx : Context) : List ((Option String × String) × CastTarget) :=
  ctx.tables.flatMap fun t => t.2.filterMap (entryOf t.1)

/-- `unqualified_targets.setdefault(column_name, set()).add(cast_target)` -/
def addTarget (targets : Dict String (List CastTarget)) (e : (Option String × String) × CastTarget) :
    Dict String (List CastTarget) :=
  targets.set e.1.2 (((targets.get? e.1.2).getD []).insert e.2)

/-- the one target of a set, if it has one -/
def single : Option (List CastTarget) → Option CastTarget
  | some [target] => some target
  | _ => none

/-- `columns[(None, column_name)] = next(iter(targets))` for a single target -/
def setUnqualified (columns : Dict (Option String × String) CastTarget) (e : String × List CastTarget) :
    Dict (Option String × String) CastTarget :=
  match single (some e.2) with
  | some target => columns.set (none, e.1) target
  | none => columns

def temporalColumnsByName (ctx : Context) : Dict (Option String × String) CastTarget :=
  let columns := Dict.ofList ctx.entries
  let unqualifiedTargets := ctx.entries.foldl addTarget Dict.empty
  unqualifiedTargets.entries.foldl setUnqualified columns

def castTargetForColumn (temporal : Dict (Option String × String) CastTarget) (node : Column) : Option CastTarget :=
  if norm node.name = "" then none
  else (temporal.get? (tableKey node.table, norm node.name)).or (temporal.get? (none, norm node.name))

/-! ## The pass -/

/-- the constructs at which the search for a cast or a comparison ends -/
def isBoundary : Construct → Bool
  | .whereClause | .havingClause | .joinClause | .select | .subquery _ => true
  | _ => false

/-- `_has_explicit_temporal_cast` in the parts of a construct -/
def castInside (cast : Bool) : Construct → Bool
  | .cast _ | .tryCast _ => true
  | .anonymous name => norm name ∈ ["date", "datetime", "timestamp"] || cast
  | label => !isBoundary label && cast

/-- the classes of `_is_temporal_predicate_context` -/
def isComparison : Operator → Bool
  | .eq | .neq | .gt | .gte | .lt | .lte | .between | .is | .isIn | .like | .ilike => true
  | _ => false

/-- `_is_temporal_predicate_context` in the parts of a construct -/
def comparedInside (compared : Bool) (label : Construct) : Bool := !isBoundary label && compared

/-- `exp.Cast` of a column -/
def castTo (type : String) (node : Column) : Sql := .closed (.cast type) [.leaf node]

def transformColumn (temporal : Dict (Option String × String) CastTarget) (cast compared : Bool) (node : Column) :
    Sql :=
  match castTargetForColumn temporal node with
  | none => .leaf node
  | some target =>
    if cast then .leaf node
    else if !compared then .leaf node
    else castTo target.sql node

mutual

/-- `expression.transform(_transform)`, with what the ancestors of a node are -/
def transform (temporal : Dict (Option String × String) CastTarget) (cast compared : Bool) : Sql → Sql
  | .leaf node => transformColumn temporal cast compared node
  | .closed label parts =>
    .closed label (transformParts temporal (castInside cast label) (comparedInside compared label) parts)
  | .pre u e => .pre u (transform temporal cast compared e)
  | .bin b l r =>
    let compared := compared || isComparison b
    .bin b (transform temporal cast compared l) (transform temporal cast compared r)

def transformParts (temporal : Dict (Option String × String) CastTarget) (cast compared : Bool) : List Sql → List Sql
  | [] => []
  | p :: ps => transform temporal cast compared p :: transformParts temporal cast compared ps

end

def normalizeTemporalPredicates (ctx : Context) (sql : SqlText) : SqlText :=
  let temporal := temporalColumnsByName ctx
  if temporal.entries = [] then sql
  else
    match read sql with
    | none => sql
    | some expression => print (transform temporal false false expression)

/-! ## What references denote -/

/-- the columns that the tables of a context declare, with their types -/
def Context.declarations (ctx : Context) : List ((String × String) × String) :=
  ctx.tables.flatMap fun t => t.2.map fun c => ((norm t.1, norm c.1), c.2)

def Context.declares (ctx : Context) (table name : String) : Bool :=
  ctx.declarations.any fun d => d.1 = (table, name)

/-- the SQL type of a temporal column, by its declared type -/
def ownType (dataType : String) : Option String :=
  let normalized := norm dataType
  if normalized = "date" then some "DATE"
  else if normalized = "time" then some "TIME"
  else if normalized = "timestamptz" ∨ normalized = "timestamp with time zone" then some "TIMESTAMPTZ"
  else if normalized = "datetime" ∨ namesTimestamp normalized then some "TIMESTAMP"
  else none

/-- what is known at a place of a query: its scope, and whether a cast or a comparison is around it -/
structure Surroundings where
  scope : Scope
  cast : Bool
  compared : Bool

def surroundings (ctx : Context) : Inherit Surroundings Column Construct PrefixOperator Operator where
  part a label parts i :=
    ⟨partScope ctx.declares a.scope label parts i, castInside a.cast label, comparedInside a.compared label⟩
  operand a _ := a
  inside a b := { a with compared := a.compared || isComparison b }

def outermost : Surroundings := ⟨⟨[], []⟩, false, false⟩

abbrev Reference := Phrases.Place Surroundings Column Operator

/-- the column references of a query -/
def references (ctx : Context) (t : Sql) : List Reference := places (surroundings ctx) outermost 0 none t

/-- a query with other phrases for its column references -/
def substitute (ctx : Context) (f : Reference → Sql) (t : Sql) : Sql :=
  mapLeaves (surroundings ctx) f outermost 0 none t

/-- a reference denotes a column of a table that declares it with a type whose SQL type is this -/
def HasOwnType (ctx : Context) (p : Reference) (type : String) : Prop :=
  ∃ c dataType, p.attr.scope.denotes p.leaf = some c ∧ (c, dataType) ∈ ctx.declarations ∧ ownType dataType = some type

/-- what may stand for a reference: itself, or a cast to the own type of the column that it denotes -/
def Allowed (ctx : Context) (p : Reference) (e : Sql) : Prop :=
  e = .leaf p.leaf ∨ ∃ type, HasOwnType ctx p type ∧ e = castTo type p.leaf

/-- only references to temporal columns are cast, to their own types, nothing else changes, and nothing changes in a
second pass -/
def CastsOnlyTemporal (ctx : Context) (sql : SqlText) : Prop :=
  (∀ t, read sql = some t → ∃ f, read (normalizeTemporalPredicates ctx sql) = some (substitute ctx f t) ∧
    ∀ p ∈ references ctx t, Allowed ctx p (f p)) ∧
  (read sql = none → normalizeTemporalPredicates ctx sql = sql) ∧
  normalizeTemporalPredicates ctx (normalizeTemporalPredicates ctx sql) = normalizeTemporalPredicates ctx sql

/-! ## The table of temporal columns -/

def lastTarget (ctx : Context) (key : Option String × String) : Option CastTarget :=
  ((ctx.entries.filter fun e => e.1 = key).getLast?).map Prod.snd

def soleTarget (ctx : Context) (name : String) : Option CastTarget :=
  match (ctx.entries.filter fun e => e.1.2 = name).map Prod.snd with
  | [] => none
  | target :: targets => if ∀ t ∈ targets, t = target then some target else none

/-- the targets of a column name among some entries, as a set -/
def TargetsOf (l : List ((Option String × String) × CastTarget)) (name : String) : Option (List CastTarget) → Prop
  | none => ∀ e ∈ l, e.1.2 ≠ name
  | some targets => targets.Nodup ∧ targets ≠ [] ∧ ∀ t, t ∈ targets ↔ ∃ e ∈ l, e.1.2 = name ∧ e.2 = t

omit [PyText] in
theorem targetsOf_foldl (l : List ((Option String × String) × CastTarget)) (name : String) :
    TargetsOf l name ((l.foldl addTarget Dict.empty).get? name) := by
  induction l using List.reverseRecOn with
  | nil => exact forall_mem_nil _
  | append_singleton l e ih =>
    rw [foldl_append, foldl_cons, foldl_nil, addTarget, get?_set]
    split_ifs with hname
    · subst hname
      refine ⟨?_, ne_nil_of_mem (mem_insert_self), fun t => ?_⟩
      · cases htargets : (l.foldl addTarget Dict.empty).get? e.1.2 with
        | none => exact nodup_nil.insert
        | some targets =>
          rw [htargets] at ih
          exact ih.1.insert
      · rw [mem_insert_iff]
        have hold : t ∈ ((l.foldl addTarget Dict.empty).get? e.1.2).getD [] ↔ ∃ e' ∈ l, e'.1.2 = e.1.2 ∧ e'.2 = t := by
          cases htargets : (l.foldl addTarget Dict.empty).get? e.1.2 with
          | none =>
            rw [htargets] at ih
            exact iff_of_false not_mem_nil (by rintro ⟨e', he', hname, _⟩; exact ih e' he' hname)
          | some targets =>
            rw [htargets] at ih
            exact ih.2.2 t
        rw [hold]
        constructor
        · rintro (rfl | ⟨e', he', h⟩)
          · exact ⟨e, mem_append_right l (mem_singleton_self e), rfl, rfl⟩
          · exact ⟨e', mem_append_left _ he', h⟩
        · rintro ⟨e', he', h⟩
          rcases mem_append.1 he' with he' | he'
          · exact .inr ⟨e', he', h⟩
          · rw [mem_singleton.1 he'] at h
            exact .inl h.2.symm
    · cases htargets : (l.foldl addTarget Dict.empty).get? name with
      | none =>
        rw [htargets] at ih
        intro e' he'
        rcases mem_append.1 he' with he' | he'
        · exact ih e' he'
        · rw [mem_singleton.1 he']
          exact fun h => hname h.symm
      | some targets =>
        rw [htargets] at ih
        refine ⟨ih.1, ih.2.1, fun t => (ih.2.2 t).trans ?_⟩
        constructor
        · rintro ⟨e', he', h⟩
          exact ⟨e', mem_append_left _ he', h⟩
        · rintro ⟨e', he', h⟩
          rcases mem_append.1 he' with he' | he'
          · exact ⟨e', he', h⟩
          · rw [mem_singleton.1 he'] at h
            exact absurd h.1.symm hname

/-- a set of targets has one exactly if all entries have it -/
theorem single_targets (ctx : Context) (name : String) :
    single ((ctx.entries.foldl addTarget Dict.empty).get? name) = soleTarget ctx name := by
  have hset := targetsOf_foldl ctx.entries name
  have hmem : ∀ t, t ∈ (ctx.entries.filter fun e => e.1.2 = name).map Prod.snd ↔
      ∃ e ∈ ctx.entries, e.1.2 = name ∧ e.2 = t := by
    simp [mem_map, mem_filter, and_assoc]
  cases htargets : (ctx.entries.foldl addTarget Dict.empty).get? name with
  | none =>
    rw [htargets] at hset
    have hnil : ctx.entries.filter (fun e => e.1.2 = name) = [] := by
      rw [filter_eq_nil_iff]
      exact fun e he => by simpa using hset e he
    rw [soleTarget, hnil]
    rfl
  | some targets =>
    rw [htargets] at hset
    obtain ⟨hnodup, hne, hall⟩ := hset
    have hsame : ∀ t, t ∈ targets ↔ t ∈ (ctx.entries.filter fun e => e.1.2 = name).map Prod.snd :=
      fun t => (hall t).trans (hmem t).symm
    rw [soleTarget]
    cases hlist : (ctx.entries.filter fun e => e.1.2 = name).map Prod.snd with
    | nil =>
      obtain ⟨t, ht⟩ := exists_mem_of_ne_nil targets hne
      rw [hsame, hlist] at ht
      exact absurd ht not_mem_nil
    | cons target more =>
      rw [hlist] at hsame
      by_cases hone : ∀ t ∈ more, t = target
      · have hsingle : targets = [target] := by
          refine perm_singleton.1 ((perm_ext_iff_of_nodup hnodup (nodup_singleton target)).2 fun t => ?_)
          rw [hsame, mem_singleton]
          exact ⟨fun ht => (mem_cons.1 ht).elim id (hone t), fun ht => ht ▸ mem_cons_self⟩
        simp only [hsingle, single, if_pos hone]
      · simp only [if_neg hone]
        rcases targets with - | ⟨t, - | ⟨t', ts⟩⟩
        · rfl
        · refine absurd (fun t' ht' => ?_) hone
          have h₁ := mem_singleton.1 ((hsame t').2 (mem_cons_of_mem _ ht'))
          have h₂ := mem_singleton.1 ((hsame target).2 mem_cons_self)
          rw [h₁, h₂]
        · rfl

omit [PyText] in
theorem foldl_setUnqualified (l : List (String × List CastTarget)) (hl : (l.map Prod.fst).Nodup)
    (d : Dict (Option String × String) CastTarget) (name : String) :
    (l.foldl setUnqualified d).get? (none, name) = (single (l.lookup name)).or (d.get? (none, name)) ∧
      ∀ table, (l.foldl setUnqualified d).get? (some table, name) = d.get? (some table, name) := by
  induction l generalizing d with
  | nil => exact ⟨rfl, fun _ => rfl⟩
  | cons e l ih =>
    obtain ⟨hnot, hl⟩ := nodup_cons.1 hl
    obtain ⟨hnone, hsome⟩ := ih hl (setUnqualified d e)
    have hother : ∀ k, k ≠ (none, e.1) → (setUnqualified d e).get? k = d.get? k := by
      intro k hk
      unfold setUnqualified
      split
      · exact get?_set_of_ne _ _ hk
      · rfl
    refine ⟨?_, fun table => ?_⟩
    · rw [foldl_cons, hnone]
      by_cases hname : name = e.1
      · have hlookup : l.lookup name = none := by
          rw [lookup_eq_none_iff]
          intro e' he'
          rw [hname]
          exact bne_iff_ne.2 fun h => hnot (h ▸ mem_map_of_mem he')
        have hcons : (e :: l).lookup name = some e.2 := by rw [hname, lookup_cons_self]
        rw [hlookup, hcons, hname]
        unfold setUnqualified
        split
        · next target htarget =>
          rw [htarget, get?_set_self]
          rfl
        · next htarget =>
          rw [htarget]
          rfl
      · have hcons : (e :: l).lookup name = l.lookup name := lookup_cons_ne hname e.2 l
        rw [hcons, hother _ (by simpa using hname)]
    · rw [foldl_cons, hsome, hother _ (by simp)]

/-- **The table of temporal columns**: the last entry of a qualified name; the one target of a name, or else the last
entry without a table. -/
theorem temporalColumnsByName_get? (ctx : Context) (name : String) :
    (temporalColumnsByName ctx).get? (none, name) = (soleTarget ctx name).or (lastTarget ctx (none, name)) ∧
      ∀ table, (temporalColumnsByName ctx).get? (some table, name) = lastTarget ctx (some table, name) := by
  obtain ⟨hnone, hsome⟩ := foldl_setUnqualified (ctx.entries.foldl addTarget Dict.empty).entries
    (ctx.entries.foldl addTarget Dict.empty).nodup (Dict.ofList ctx.entries) name
  rw [get?_ofList] at hnone
  refine ⟨hnone.trans ?_, fun table => (hsome table).trans (get?_ofList _ _)⟩
  rw [← single_targets]
  rfl

/-- the target that a reference gets: by its qualifier as it is written, else by its name alone -/
def chosenTarget (ctx : Context) (c : Column) : Option CastTarget :=
  if norm c.name = "" then none
  else
    ((tableKey c.table).bind fun table => lastTarget ctx (some table, norm c.name)).or
      ((soleTarget ctx (norm c.name)).or (lastTarget ctx (none, norm c.name)))

theorem castTargetForColumn_eq (ctx : Context) (c : Column) :
    castTargetForColumn (temporalColumnsByName ctx) c = chosenTarget ctx c := by
  obtain ⟨hnone, hsome⟩ := temporalColumnsByName_get? ctx (norm c.name)
  rw [castTargetForColumn, chosenTarget, hnone]
  cases htable : tableKey c.table with
  | none => rw [hnone, Option.or_self, Option.bind_none, Option.none_or]
  | some table => rw [hsome, Option.bind_some]

/-! ## What is cast -/

structure Exposed (p : Reference) : Prop where
  uncast : p.attr.cast = false
  compared : p.attr.compared = true

/-- what the pass puts for a reference -/
def replacement (ctx : Context) (p : Reference) : Sql :=
  transformColumn (temporalColumnsByName ctx) p.attr.cast p.attr.compared p.leaf

theorem transform_eq_mapLeaves (ctx : Context) (t : Sql) (a : Surroundings) (least : ℕ) (next : Option Operator) :
    transform (temporalColumnsByName ctx) a.cast a.compared t =
      mapLeaves (surroundings ctx) (replacement ctx) a least next t := by
  induction t using Phrase.induction generalizing a least next with
  | leaf c => rfl
  | closed label parts ih =>
    have hparts : ∀ (all ps : List Sql) (i : ℕ), (∀ p ∈ ps, p ∈ parts) →
        transformParts (temporalColumnsByName ctx) (castInside a.cast label) (comparedInside a.compared label) ps =
          mapParts (surroundings ctx) (replacement ctx) a label all i ps := by
      intro all ps i hps
      induction ps generalizing i with
      | nil => rfl
      | cons p ps ihps =>
        rcases forall_mem_cons.1 hps with ⟨hp, hps⟩
        rw [transformParts, mapParts, ihps (i + 1) hps]
        exact congrArg (· :: _) (ih p hp ((surroundings ctx).part a label all i) 0 none)
    rw [transform, mapLeaves, hparts parts parts 0 fun p hp => hp]
  | pre u e ih => exact congrArg (Phrase.pre u) (ih _ _ _)
  | bin b l r ihl ihr =>
    have hl := ihl ((surroundings ctx).inside a b) 0 (some b)
    have hr := ihr ((surroundings ctx).inside a b) (Binding.level b + 1) next
    exact congrArg₂ (Phrase.bin b) hl hr

theorem replacement_eq (ctx : Context) (p : Reference) :
    (∃ target, chosenTarget ctx p.leaf = some target ∧ Exposed p ∧ replacement ctx p = castTo target.sql p.leaf) ∨
      ((∀ target, chosenTarget ctx p.leaf = some target → ¬ Exposed p) ∧ replacement ctx p = .leaf p.leaf) := by
  rw [replacement, transformColumn, castTargetForColumn_eq]
  cases htarget : chosenTarget ctx p.leaf with
  | none => exact .inr ⟨fun _ h => (nomatch h), rfl⟩
  | some target =>
    cases hcast : p.attr.cast with
    | true => exact .inr ⟨fun _ _ h => Bool.noConfusion (hcast.symm.trans h.uncast), rfl⟩
    | false =>
      cases hcompared : p.attr.compared with
      | false => exact .inr ⟨fun _ _ h => Bool.noConfusion (hcompared.symm.trans h.compared), rfl⟩
      | true => exact .inl ⟨target, rfl, ⟨hcast, hcompared⟩, rfl⟩

omit [PyText] in
theorem castTo_injective {type type' : String} {c c' : Column} (h : castTo type c = castTo type' c') :
    type = type' := by
  simp only [castTo, Phrase.closed.injEq, Construct.cast.injEq] at h
  exact h.1

/-- the replacement is allowed exactly if the target is the own type of the column -/
theorem allowed_replacement_iff (ctx : Context) (p : Reference) : Allowed ctx p (replacement ctx p) ↔
    (Exposed p → ∀ target, chosenTarget ctx p.leaf = some target → HasOwnType ctx p target.sql) := by
  rcases replacement_eq ctx p with ⟨target, htarget, hexposed, hreplacement⟩ | ⟨hnone, hreplacement⟩
  · rw [hreplacement]
    constructor
    · rintro (hleaf | ⟨type, htype, hcast⟩)
      · cases hleaf
      · rintro - target' htarget'
        rw [← Option.some.inj (htarget.symm.trans htarget'), castTo_injective hcast]
        exact htype
    · exact fun h => .inr ⟨target.sql, h hexposed target htarget, rfl⟩
  · rw [hreplacement]
    exact iff_of_true (.inl rfl) fun hexposed target htarget => absurd hexposed (hnone target htarget)

/-! ## A second pass -/

theorem transform_transform (temporal : Dict (Option String × String) CastTarget) (cast compared : Bool) (t : Sql) :
    transform temporal cast compared (transform temporal cast compared t) = transform temporal cast compared t := by
  induction t using Phrase.induction generalizing cast compared with
  | leaf c =>
    cases htarget : castTargetForColumn temporal c with
    | none => simp [transformColumn, transform, htarget]
    | some target => cases cast <;> cases compared <;>
        simp [transformColumn, transform, transformParts, htarget, castTo, castInside]
  | closed label parts ih =>
    have hparts : ∀ ps : List Sql, (∀ p ∈ ps, p ∈ parts) → ∀ cast compared,
        transformParts temporal cast compared (transformParts temporal cast compared ps) =
          transformParts temporal cast compared ps := by
      intro ps hps cast compared
      induction ps with
      | nil => rfl
      | cons p ps ihps =>
        rcases forall_mem_cons.1 hps with ⟨hp, hps⟩
        rw [transformParts, transformParts, ih p hp, ihps hps]
    rw [transform, transform, hparts parts fun p hp => hp]
  | pre u e ih => rw [transform, transform, ih]
  | bin b l r ihl ihr => rw [transform, transform, ihl, ihr]

/-- casts leave a query grouped -/
theorem grouped_transform (ctx : Context) {t : Sql} (h : Grouped t) :
    Grouped (transform (temporalColumnsByName ctx) false false t) := by
  have hsettled : Settled 0 none t := ⟨h, atLeast_zero t, fun _ hb => nomatch hb⟩
  change Grouped (transform (temporalColumnsByName ctx) outermost.cast outermost.compared t)
  rw [transform_eq_mapLeaves ctx t outermost 0 none]
  refine ((settled_mapLeaves (surroundings ctx) (replacement ctx) outermost hsettled).2 fun p _ => ?_).grouped
  rcases replacement_eq ctx p with ⟨target, -, -, hreplacement⟩ | ⟨-, hreplacement⟩
  · rw [hreplacement]
    exact ⟨.closed fun e he => mem_singleton.1 he ▸ .leaf, trivial, fun _ _ => rfl⟩
  · rw [hreplacement]
    exact ⟨.leaf, trivial, fun _ _ => rfl⟩

/-- **A second pass** changes nothing. -/
theorem normalize_normalize (ctx : Context) (sql : SqlText) :
    normalizeTemporalPredicates ctx (normalizeTemporalPredicates ctx sql) = normalizeTemporalPredicates ctx sql := by
  by_cases hempty : (temporalColumnsByName ctx).entries = []
  · simp only [normalizeTemporalPredicates, if_pos hempty]
  · cases hread : read sql with
    | none => simp only [normalizeTemporalPredicates, if_neg hempty, hread]
    | some t =>
      have hagain := read_print (grouped_transform ctx (grouped_of_read hread))
      simp only [normalizeTemporalPredicates, if_neg hempty, hread, hagain, transform_transform]

/-- without targets nothing is cast -/
theorem transform_of_none {temporal : Dict (Option String × String) CastTarget}
    (h : ∀ c, castTargetForColumn temporal c = none) (cast compared : Bool) (t : Sql) :
    transform temporal cast compared t = t := by
  induction t using Phrase.induction generalizing cast compared with
  | leaf c => rw [transform, transformColumn, h]
  | closed label parts ih =>
    have hparts : ∀ ps : List Sql, (∀ p ∈ ps, p ∈ parts) → ∀ cast compared,
        transformParts temporal cast compared ps = ps := by
      intro ps hps cast compared
      induction ps with
      | nil => rfl
      | cons p ps ihps =>
        rcases forall_mem_cons.1 hps with ⟨hp, hps⟩
        rw [transformParts, ih p hp, ihps hps]
    rw [transform, hparts parts fun p hp => hp]
  | pre u e ih => rw [transform, ih]
  | bin b l r ihl ihr => rw [transform, ihl, ihr]

theorem read_normalize (ctx : Context) {sql : SqlText} {t : Sql} (h : read sql = some t) :
    read (normalizeTemporalPredicates ctx sql) = some (substitute ctx (replacement ctx) t) := by
  have hsubstitute : substitute ctx (replacement ctx) t = transform (temporalColumnsByName ctx) false false t :=
    (transform_eq_mapLeaves ctx t outermost 0 none).symm
  rw [hsubstitute]
  by_cases hempty : (temporalColumnsByName ctx).entries = []
  · have hnone : ∀ c, castTargetForColumn (temporalColumnsByName ctx) c = none := by
      simp [castTargetForColumn, Dict.get?, hempty]
    rw [transform_of_none hnone]
    simp only [normalizeTemporalPredicates, if_pos hempty, h]
  · simp only [normalizeTemporalPredicates, if_neg hempty, h]
    exact read_print (grouped_transform ctx (grouped_of_read h))

theorem allowed_of_castsOnlyTemporal {ctx : Context} {sql : SqlText} (h : CastsOnlyTemporal ctx sql) {t : Sql}
    (hread : read sql = some t) : ∀ p ∈ references ctx t, Allowed ctx p (replacement ctx p) := by
  obtain ⟨f, hf, hall⟩ := h.1 t hread
  rw [read_normalize ctx hread, Option.some.injEq] at hf
  have hsame := (mapLeaves_eq_iff (surroundings ctx) (replacement ctx) f outermost 0 none t).1 hf
  intro p hp
  rw [hsame p hp]
  exact hall p hp

end Pass

/-! ## A column of the same name -/

section Namesake

open scoped Ascii

def ordersAndCustomers : Context :=
  ⟨[⟨"orders", [("created_at", "timestamp")]⟩, ⟨"customers", [("created_at", "varchar")]⟩], none⟩

/-- `SELECT created_at FROM customers WHERE customers.created_at = 'new'` -/
def textPredicate : Sql :=
  .closed .select [.closed .projections [.leaf ⟨"", "created_at"⟩],
    .closed .fromClause [.closed (.table "customers" "") []],
    .closed .whereClause [.bin .eq (.leaf ⟨"customers", "created_at"⟩) (.closed (.literal "'new'") [])]]

end Namesake

end Langbridge.Orchestrator.TemporalPredicates
