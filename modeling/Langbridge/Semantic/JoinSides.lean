/-
The side whose unmatched rows an emitted join keeps. A relationship of type `left`, `right`, `full` or `inner` names the
join of its target to its source; the planner may walk it from the target, and `_apply_from` then joins the source to
the target under the same type.
-/
import Langbridge.Core.Unmatched
import Langbridge.Semantic.FanOut

namespace Langbridge.Semantic

open Core Core.Joins Federation.Sql List Function

/-! ## Sides -/

/-- the two datasets of a relationship -/
inductive Side
  | source | target
deriving DecidableEq

def RelationshipType.named : RelationshipType → Option Joins.Kind
  | .left => some .left
  | .right => some .right
  | .full => some .full
  | .inner => some .inner
  | _ => none

/-- the side whose dataset a step adds; the other one is joined already -/
def JoinStep.newSide (step : JoinStep) : Side :=
  if step.rightDataset = step.relationship.targetDataset then .target else .source

section Emitted

variable (engine : Engine) (db : Database) (baseDataset : String) (steps : List JoinStep)

/-- the rows joined once the joins for the first steps of a plan have been made -/
def emittedRows (before : List JoinStep) : List (Env String Record) :=
  join (⟨planAlias baseDataset steps baseDataset, db.records baseDataset, .inner, fun _ => true⟩ ::
    (before.map (joinClause (buildAliasMap baseDataset steps))).map (JoinClause.step engine db))

def emittedStep (step : JoinStep) : Step String Record :=
  (joinClause (buildAliasMap baseDataset steps) step).step engine db

end Emitted

/-- the join emitted for a step keeps the unmatched rows of a side, in every database -/
def EmittedKeeps (baseDataset : String) (steps before : List JoinStep) (step : JoinStep) (side : Side) : Prop :=
  ∀ (engine : Engine) (db : Database),
    if side = step.newSide then
      KeepsNew (emittedRows engine db baseDataset steps before) (emittedStep engine db baseDataset steps step)
    else
      KeepsJoined (emittedRows engine db baseDataset steps before) (emittedStep engine db baseDataset steps step)

def Relationship.sideRows (r : Relationship) (db : Database) : Side → List Record
  | .source => db.records r.sourceDataset
  | .target => db.records r.targetDataset

/-- `source <type> JOIN target` -/
def Relationship.namedLink (r : Relationship) (engine : Engine) (kind : Joins.Kind) : Link Side Record :=
  ⟨.source, .target, kind, r.relates engine⟩

/-- `source <type> JOIN target` keeps the unmatched rows of a side, in every database -/
def NamedKeeps (r : Relationship) (kind : Joins.Kind) (side : Side) : Prop :=
  ∀ (engine : Engine) (db : Database),
    match side with
    | .source => KeepsJoined (linked (r.sideRows db) .source []) ((r.namedLink engine kind).step (r.sideRows db))
    | .target => KeepsNew (linked (r.sideRows db) .source []) ((r.namedLink engine kind).step (r.sideRows db))

def SameSides (baseDataset : String) (steps before : List JoinStep) (step : JoinStep) (kind : Joins.Kind) : Prop :=
  ∀ side, EmittedKeeps baseDataset steps before step side ↔ NamedKeeps step.relationship kind side

/-! ## Rows that tell the kinds apart -/

/-- a row without nulls -/
def fullRow (fields : List String) : Dict String Val :=
  Dict.tabulate fields.dedup (nodup_dedup fields) fun _ => .int 1

/-- one such row in some of the datasets, none in the others -/
def fullDatabase (fields : List String) (present : String → Bool) : Database :=
  fun d => if present d then [fullRow fields] else []

/-- all values but nulls match -/
def matchingEngine : Engine :=
  { equalityEngine with
    compare := fun _ l r => l ≠ .null && r ≠ .null
    compare_null_left := by simp
    compare_null_right := by simp }

theorem records_present {fields : List String} {present : String → Bool} {d : String} (h : present d = true) :
    (fullDatabase fields present).records d = [(fullRow fields, 0)] := by
  rw [Database.records, fullDatabase, if_pos h]
  rfl

theorem records_absent {fields : List String} {present : String → Bool} {d : String} (h : present d = false) :
    (fullDatabase fields present).records d = [] := by
  rw [Database.records, fullDatabase, if_neg (by simp [h])]
  rfl

theorem get_fullRow {fields : List String} {field : String} (h : field ∈ fields) (place : ℕ) :
    Record.get (fullRow fields, place) field = .int 1 := by
  rw [Record.get, fullRow, Dict.get?_tabulate, if_pos (mem_dedup.2 h)]
  rfl

/-- rows without nulls are related -/
theorem relates_fullRow {fields : List String} {r : Relationship} (hsource : r.sourceField ∈ fields)
    (htarget : r.targetField ∈ fields) :
    r.relates matchingEngine (fullRow fields, 0) (fullRow fields, 0) = true := by
  rw [Relationship.relates, get_fullRow hsource, get_fullRow htarget]
  rfl

/-! ## What the type names -/

section Named

variable {r : Relationship} {kind : Joins.Kind}

theorem namedKeeps_source (hne : r.sourceDataset ≠ r.targetDataset) : NamedKeeps r kind .source ↔ kind.keepsJoined := by
  apply Iff.intro
  · intro h
    have hkeeps := h matchingEngine (fullDatabase [] fun d => d = r.sourceDataset)
    refine (keepsJoined_iff ?_ ?_).1 hkeeps
    · simp [linked, join, joinStep, matching, Relationship.sideRows, records_present]
    · exact records_absent (decide_eq_false hne.symm)
  · exact fun h engine db => keepsJoined_of_kind h

theorem namedKeeps_target (hne : r.sourceDataset ≠ r.targetDataset) : NamedKeeps r kind .target ↔ kind.keepsNew := by
  apply Iff.intro
  · intro h
    have hkeeps := h matchingEngine (fullDatabase [] fun d => d = r.targetDataset)
    have hnil : linked (r.sideRows (fullDatabase [] fun d => d = r.targetDataset)) .source [] = [] := by
      have hrows : (fullDatabase [] fun d => d = r.targetDataset).records r.sourceDataset = [] :=
        records_absent (decide_eq_false hne)
      simp [linked, join, joinStep, matching, Relationship.sideRows, hrows]
    rw [hnil] at hkeeps
    refine (keepsNew_iff ?_).1 hkeeps
    have hrows : (fullDatabase [] fun d => d = r.targetDataset).records r.targetDataset = [(fullRow [], 0)] :=
      records_present (decide_eq_true rfl)
    simp [Link.step, Relationship.namedLink, Relationship.sideRows, hrows]
  · exact fun h engine db => keepsNew_of_kind h

end Named

/-! ## What the emitted join keeps -/

section Steps

variable {relationships : List Relationship} {baseDataset : String} {steps : List JoinStep}

theorem emittedRows_append (engine : Engine) (db : Database) (before : List JoinStep) (step : JoinStep) :
    emittedRows engine db baseDataset steps (before ++ [step]) =
      joinStep (emittedRows engine db baseDataset steps before) (emittedStep engine db baseDataset steps step) := by
  rw [emittedRows, emittedRows, join, join, map_append, map_append, ← cons_append, foldl_append]
  rfl

def fieldsOf (steps : List JoinStep) : List String :=
  steps.flatMap fun step => [step.relationship.sourceField, step.relationship.targetField]

theorem mem_fieldsOf {step : JoinStep} (h : step ∈ steps) :
    step.relationship.sourceField ∈ fieldsOf steps ∧ step.relationship.targetField ∈ fieldsOf steps := by
  simp only [fieldsOf, mem_flatMap, mem_cons, not_mem_nil, or_false]
  exact ⟨⟨step, h, .inl rfl⟩, ⟨step, h, .inr rfl⟩⟩

/-- where every dataset joined so far has a row and all rows match, some row is joined from all of them -/
theorem exists_emittedRow (h : JoinTree relationships baseDataset steps) (present : String → Bool)
    (before after : List JoinStep) (hsplit : steps = before ++ after)
    (hpresent : ∀ d ∈ joinedDatasets baseDataset before, present d = true) :
    ∃ e ∈ emittedRows matchingEngine (fullDatabase (fieldsOf steps) present) baseDataset steps before,
      ∀ d ∈ joinedDatasets baseDataset before,
        e (planAlias baseDataset steps d) = some (fullRow (fieldsOf steps), 0) := by
  induction before using List.reverseRecOn generalizing after with
  | nil =>
    have hbase : baseDataset ∈ joinedDatasets baseDataset [] := Finset.mem_insert_self _ _
    refine ⟨Function.update blank (planAlias baseDataset steps baseDataset) (some (fullRow (fieldsOf steps), 0)),
      ?_, ?_⟩
    · simp [emittedRows, join, joinStep, matching, records_present (hpresent _ hbase)]
    · intro d hd
      rcases Finset.mem_insert.1 hd with rfl | hd
      · exact update_self _ _ _
      · simp at hd
  | append_singleton before step ih =>
    rw [append_assoc, singleton_append] at hsplit
    have hstep : step ∈ steps := by
      rw [hsplit]
      exact mem_append_right _ mem_cons_self
    have hall := joinedDatasets_append baseDataset before step
    have hright : step.rightDataset ∈ joinedDatasets baseDataset (before ++ [step]) := by
      rw [hall]
      exact Finset.mem_insert_self _ _
    obtain ⟨e, he, hrows⟩ := ih (step :: after) hsplit fun d hd => hpresent d (by
      rw [hall]
      exact Finset.mem_insert_of_mem hd)
    have hleft := hrows _ (h.leftJoined before step after hsplit)
    obtain ⟨hleftJoined, hrightJoined, hne⟩ := h.mem_joined hstep
    have halias : planAlias baseDataset steps step.leftDataset ≠ planAlias baseDataset steps step.rightDataset :=
      fun heq => hne (aliasMap_injective baseDataset steps _ _ hleftJoined hrightJoined heq).symm
    refine ⟨Function.update e (planAlias baseDataset steps step.rightDataset) (some (fullRow (fieldsOf steps), 0)),
      ?_, ?_⟩
    · rw [emittedRows_append]
      apply mem_joinStep_of_matching he
      refine mem_filter.2 ⟨mem_map.2 ⟨_, ?_, rfl⟩, ?_⟩
      · change _ ∈ Database.records _ step.rightDataset
        rw [records_present (hpresent _ hright)]
        exact mem_singleton_self _
      · -- the rows of the two datasets have no nulls
        obtain ⟨hsourceField, htargetField⟩ := mem_fieldsOf hstep
        have hon := fun x => @holds_joinCondition matchingEngine _ _ _ h _ hstep x
        change Comparison.holds matchingEngine (joinCondition _ _) _ = true
        rw [hon]
        simp only [Link.on, JoinStep.link, update_self, update_of_ne halias, hleft]
        rw [JoinStep.relates, relates_fullRow hsourceField htargetField, ite_self]
    · intro d hd
      rw [hall, Finset.mem_insert] at hd
      rcases hd with rfl | hd
      · exact update_self _ _ _
      · have hjoined : d ∈ joinedDatasets baseDataset steps := by
          rw [hsplit, joinedDatasets, map_append, toFinset_append]
          exact Finset.insert_subset_insert _ Finset.subset_union_left hd
        have hother : planAlias baseDataset steps d ≠ planAlias baseDataset steps step.rightDataset := by
          intro heq
          have hd' := aliasMap_injective baseDataset steps _ _ hjoined hrightJoined heq
          exact h.rightNew before step after hsplit (hd' ▸ hd)
        rw [update_of_ne hother]
        exact hrows d hd

/-- where no dataset joined so far has rows, nothing is joined -/
theorem emittedRows_eq_nil (engine : Engine) (db : Database) (before : List JoinStep)
    (hempty : ∀ d ∈ joinedDatasets baseDataset before, db.records d = []) :
    emittedRows engine db baseDataset steps before = [] := by
  have hroot : joinStep [blank] ⟨planAlias baseDataset steps baseDataset, db.records baseDataset, .inner,
      fun _ => true⟩ = ([] : List (Env String Record)) := by
    simp [joinStep, matching, hempty _ (Finset.mem_insert_self _ _)]
  rw [emittedRows, join, foldl_cons, hroot]
  apply foldl_joinStep_nil
  intro s hs
  obtain ⟨clause, hclause, rfl⟩ := mem_map.1 hs
  obtain ⟨step, hstep, rfl⟩ := mem_map.1 hclause
  apply hempty
  apply Finset.mem_insert_of_mem
  rw [mem_toFinset]
  exact mem_map_of_mem hstep

variable (h : JoinTree relationships baseDataset steps) {before after : List JoinStep} {step : JoinStep}
  (hsplit : steps = before ++ step :: after)

include h hsplit

/-- **The side that is joined already**, wherever the join stands. -/
theorem emittedKeeps_joined {side : Side} (hside : side ≠ step.newSide) :
    EmittedKeeps baseDataset steps before step side ↔ (joinType step.relationship.type).keepsJoined := by
  apply Iff.intro
  · intro hkeeps
    have hone := hkeeps matchingEngine (fullDatabase (fieldsOf steps) fun d => d ≠ step.rightDataset)
    rw [if_neg hside] at hone
    refine (keepsJoined_iff ?_ ?_).1 hone
    · obtain ⟨e, he, -⟩ := exists_emittedRow h (fun d => d ≠ step.rightDataset) before (step :: after) hsplit
        fun d hd => decide_eq_true fun heq => h.rightNew before step after hsplit (heq ▸ hd)
      exact ne_nil_of_mem he
    · change Database.records _ step.rightDataset = []
      exact records_absent (by simp)
  · intro hkind engine db
    rw [if_neg hside]
    exact keepsJoined_of_kind hkind

/-- **The side that the join adds**, wherever the join stands. -/
theorem emittedKeeps_new :
    EmittedKeeps baseDataset steps before step step.newSide ↔ (joinType step.relationship.type).keepsNew := by
  apply Iff.intro
  · intro hkeeps
    have hone := hkeeps matchingEngine (fullDatabase [] fun d => d = step.rightDataset)
    rw [if_pos rfl, emittedRows_eq_nil] at hone
    · refine (keepsNew_iff ?_).1 hone
      have hrows : (fullDatabase [] fun d => d = step.rightDataset).records step.rightDataset = [(fullRow [], 0)] :=
        records_present (decide_eq_true rfl)
      change Database.records _ step.rightDataset ≠ []
      rw [hrows]
      exact cons_ne_nil _ _
    · exact fun d hd => records_absent (decide_eq_false fun heq => h.rightNew before step after hsplit (heq ▸ hd))
  · intro hkind engine db
    rw [if_pos rfl]
    exact keepsNew_of_kind hkind

end Steps

/-! ## The two together -/

theorem joinType_of_named {type : RelationshipType} {kind : Joins.Kind} (h : type.named = some kind) :
    joinType type = kind := by
  cases type <;> simp_all [RelationshipType.named, joinType]

section Directions

variable {relationships : List Relationship} {baseDataset : String} {steps : List JoinStep}
  (h : JoinTree relationships baseDataset steps) {before after : List JoinStep} {step : JoinStep}
  (hsplit : steps = before ++ step :: after) {kind : Joins.Kind} (hkind : step.relationship.type.named = some kind)

include h hsplit hkind

theorem sameSides_forwards (hsource : step.relationship.sourceDataset = step.leftDataset)
    (htarget : step.relationship.targetDataset = step.rightDataset) : SameSides baseDataset steps before step kind := by
  have hne := (h.mem_joined (hsplit ▸ mem_append_right _ mem_cons_self)).2.2
  have hdatasets : step.relationship.sourceDataset ≠ step.relationship.targetDataset := by
    rw [hsource, htarget]
    exact hne.symm
  have hside : step.newSide = .target := if_pos htarget.symm
  have hold : Side.source ≠ step.newSide := by
    rw [hside]
    decide
  intro side
  cases side with
  | source => rw [emittedKeeps_joined h hsplit hold, joinType_of_named hkind, namedKeeps_source hdatasets]
  | target => rw [← hside, emittedKeeps_new h hsplit, joinType_of_named hkind, hside, namedKeeps_target hdatasets]

theorem sameSides_backwards (htarget : step.relationship.targetDataset = step.leftDataset)
    (hsource : step.relationship.sourceDataset = step.rightDataset) :
    SameSides baseDataset steps before step kind ↔ (kind.keepsNew ↔ kind.keepsJoined) := by
  have hne := (h.mem_joined (hsplit ▸ mem_append_right _ mem_cons_self)).2.2
  have hdatasets : step.relationship.sourceDataset ≠ step.relationship.targetDataset := by
    rw [hsource, htarget]
    exact hne
  have hside : step.newSide = .source := if_neg (by rw [htarget]; exact hne)
  have hold : Side.target ≠ step.newSide := by
    rw [hside]
    decide
  have hnew := emittedKeeps_new h hsplit
  have hjoined := emittedKeeps_joined h hsplit hold
  rw [joinType_of_named hkind] at hnew hjoined
  apply Iff.intro
  · intro hsame
    rw [← namedKeeps_source hdatasets, ← hsame, ← hside, hnew]
  · intro hboth side
    cases side with
    | source => rw [← hside, hnew, hside, namedKeeps_source hdatasets, hboth]
    | target => rw [hjoined, namedKeeps_target hdatasets, hboth]

end Directions

/-- **The sides that the type names** are kept exactly where the relationship is walked from its source, or is of a type
that treats both sides alike. -/
theorem emitted_sides_iff (planner : JoinPlanner) (baseDataset : String) (requiredDatasets : Finset String)
    (steps before after : List JoinStep) (step : JoinStep) (kind : Joins.Kind)
    (hplan : planner.plan baseDataset requiredDatasets = .ok steps) (hsplit : steps = before ++ step :: after)
    (hkind : step.relationship.type.named = some kind) :
    SameSides baseDataset steps before step kind ↔
      step.leftDataset = step.relationship.sourceDataset ∨ kind = .inner ∨ kind = .full := by
  obtain ⟨h, -⟩ := planner.plan_ok hplan
  have hstep : step ∈ steps := by
    rw [hsplit]
    exact mem_append_right _ mem_cons_self
  rcases (h.related step hstep).2 with ⟨hsource, htarget⟩ | ⟨htarget, hsource⟩
  · exact iff_of_true (sameSides_forwards h hsplit hkind hsource htarget) (.inl hsource.symm)
  · have hwalked : ¬step.leftDataset = step.relationship.sourceDataset := by
      rw [hsource]
      exact (h.mem_joined hstep).2.2.symm
    rw [sameSides_backwards h hsplit hkind htarget hsource, or_iff_right hwalked]
    cases kind <;> simp [Joins.Kind.keepsNew, Joins.Kind.keepsJoined]

/-! ## Orders and their customers -/

def orderCustomer : Relationship :=
  { name := "order_customer", sourceDataset := "orders", sourceField := "customer_id", targetDataset := "customers",
    targetField := "id", type := .left }

def customersPlanner : JoinPlanner := JoinPlanner.init (some [orderCustomer])

def customerStep : JoinStep := ⟨orderCustomer, "customers", "orders"⟩

theorem customers_plan : customersPlanner.plan "customers" {"customers", "orders"} = .ok [customerStep] := by
  have hrequired : ({"customers", "orders"} : Finset String).erase "customers" = {"orders"} := by decide
  have hjoin : customersPlanner.joinTargets "customers" ["orders"] ⟨{"customers"}, []⟩ =
      .ok ⟨{"orders", "customers"}, [customerStep]⟩ := rfl
  rw [JoinPlanner.plan, if_neg (Finset.insert_ne_empty _ _), hrequired, Finset.sort_singleton, hjoin]
  rfl

theorem emitted_sides_orders :
    SameSides "customers" [customerStep] [] customerStep .left ↔
      customerStep.leftDataset = customerStep.relationship.sourceDataset ∨ (.left : Joins.Kind) = .inner ∨
        (.left : Joins.Kind) = .full :=
  emitted_sides_iff customersPlanner "customers" {"customers", "orders"} [customerStep] [] [] customerStep .left
    customers_plan rfl rfl

/-- **An order without a customer is lost** when the customers are the base: `orders LEFT JOIN customers` keeps it, and
the emitted join does not. -/
theorem orders_side_lost :
    customersPlanner.plan "customers" {"customers", "orders"} = .ok [customerStep] ∧
      NamedKeeps orderCustomer .left .source ∧
      ¬EmittedKeeps "customers" [customerStep] [] customerStep .source := by
  obtain ⟨h, -⟩ := customersPlanner.plan_ok customers_plan
  refine ⟨customers_plan, ?_, ?_⟩
  · rw [namedKeeps_source (by decide)]
    exact .inl rfl
  · intro hkeeps
    have hnew : EmittedKeeps "customers" [customerStep] [] customerStep customerStep.newSide := hkeeps
    rw [emittedKeeps_new h (rfl : [customerStep] = [] ++ customerStep :: [])] at hnew
    exact absurd hnew (by simp [Joins.Kind.keepsNew, customerStep, orderCustomer, joinType])

end Langbridge.Semantic
