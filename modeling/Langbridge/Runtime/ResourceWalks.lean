/-
Walks along a resource path (`connectors/base/resource_paths.py`): what a step leads to, when it is taken, and where a
walk from the records ends.

Main results: `descend_cases`, `walk_of_walkable`, `walk_missing_iff`, `initialNodes_of_hashable`.
-/
import Langbridge.Runtime.ChildIdentities

namespace Langbridge.Runtime

open Core List

/-! ## Steps of a path -/

/-- what stands under a field of a value -/
def childAt (segment : String) : Json → Json
  | .obj entries => field entries segment
  | _ => .null

/-- the values that stand there, with whether they are the items of a list -/
def placesOf : Json → List (Json × Bool)
  | .null => []
  | .arr items => items.map fun v => (v, true)
  | v => [(v, false)]

/-- the values that a step leads to -/
def stepTo (segment : String) (places : List (Json × Bool)) : List (Json × Bool) :=
  places.flatMap fun v => placesOf (childAt segment v.1)

/-- the values that some steps lead to -/
def reached (done : List String) (places : List (Json × Bool)) : List (Json × Bool) :=
  done.foldl (fun places segment => stepTo segment places) places

/-- values that can stand in a set -/
def hashable : Json → Bool
  | .arr _ => false
  | .obj _ => false
  | _ => true

/-- the identity of a value can be looked at -/
def identified : Json → Bool
  | .obj entries => hashable (field entries "id")
  | _ => true

def isList : Json → Bool
  | .arr _ => true
  | _ => false

/-- a step is taken: it leads somewhere, and to lists from all values or from none -/
structure Passes (segment : String) (places : List (Json × Bool)) : Prop where
  identities : ∀ v ∈ stepTo segment places, identified v.1 = true
  found : stepTo segment places = [] → places = []
  alike : ∀ v ∈ places, ∀ w ∈ places, childAt segment v.1 ≠ .null → childAt segment w.1 ≠ .null →
    isList (childAt segment v.1) = isList (childAt segment w.1)

/-- the steps that are all taken -/
def Walkable : List String → List (Json × Bool) → Prop
  | [], _ => True
  | segment :: rest, places => Passes segment places ∧ Walkable rest (stepTo segment places)

def TraversalNode.place (n : TraversalNode) : Json × Bool := (n.value, n.childIndex.isSome)

variable {v : Json}

theorem isMissing_of_hashable (h : hashable v = true) : ∃ b, isMissing v = .ok b := by
  cases v with
  | arr items => cases h
  | obj entries => cases h
  | _ => exact ⟨_, rfl⟩

theorem isMissing_of_not_hashable (h : hashable v = false) : isMissing v = .error .unhashable := by
  cases v with
  | arr items => rfl
  | obj entries => rfl
  | _ => cases h

theorem coerceChildIdentity_of_identified (fallback : Json) (h : identified v = true) :
    ∃ id, coerceChildIdentity fallback v = .ok id := by
  cases v with
  | obj entries =>
    obtain ⟨b, hb⟩ := isMissing_of_hashable h
    rw [coerceChildIdentity, hb]
    exact ⟨_, rfl⟩
  | _ => exact ⟨fallback, rfl⟩

theorem coerceChildIdentity_of_not_identified {fallback v : Json} (h : identified v = false) :
    coerceChildIdentity fallback v = .error .unhashable := by
  cases v with
  | obj entries =>
    rw [coerceChildIdentity, isMissing_of_not_hashable h]
    rfl
  | _ => cases h

theorem childrenOf_places (segment : String) (o : Owner) :
    (childrenOf segment o).map (fun c => c.node.place) = placesOf (childAt segment o.2) := by
  unfold childrenOf childAt
  cases o.2 with
  | obj entries =>
    cases hfield : field entries segment with
    | arr items =>
      simp only [hfield, placesOf, List.map_map]
      conv_rhs => rw [← zipIdx_map_fst 0 items, List.map_map]
      rfl
    | _ =>
      simp only [hfield, placesOf]
      rfl
  | _ => rfl

theorem mapM_error {ε α β : Type} {f : α → Except ε β} (e₀ : ε) {l : List α} (h : ∀ a ∈ l, ∀ e, f a = .error e → e = e₀)
    (hno : ¬ ∀ a ∈ l, ∃ b, f a = .ok b) : l.mapM f = .error e₀ := by
  induction l with
  | nil => exact absurd (fun a ha => nomatch ha) hno
  | cons a l ih =>
    rw [mapM_cons]
    cases hf : f a with
    | error e =>
      rw [h a mem_cons_self e hf]
      rfl
    | ok b =>
      have hrest : ¬ ∀ a ∈ l, ∃ b, f a = .ok b := by
        intro hall
        exact hno (forall_mem_cons.2 ⟨⟨b, hf⟩, hall⟩)
      rw [ih (fun a ha => h a (mem_cons_of_mem _ ha)) hrest]
      rfl

/-- how many values a child stands for -/
def cardinalityOf (v : Json) : Cardinality := if isList v = true then .many else .one

/-- **The children of a node** are found if their identities can be looked at. -/
theorem childNodes_eq (segment : String) (n : TraversalNode) :
    ((∀ v ∈ placesOf (childAt segment n.value), identified v.1 = true) →
      ∃ found, childNodes segment n = .ok found ∧
        found.map Prod.fst = if (childAt segment n.value).isNull then none
          else some (cardinalityOf (childAt segment n.value))) ∧
    ((¬ ∀ v ∈ placesOf (childAt segment n.value), identified v.1 = true) →
      childNodes segment n = .error .unhashable) := by
  unfold childNodes childAt
  cases n.value with
  | obj entries =>
    obtain ⟨value, hfield⟩ : ∃ value, field entries segment = value := ⟨_, rfl⟩
    simp only [hfield]
    cases value with
    | null =>
      refine ⟨fun _ => ⟨none, rfl, rfl⟩, fun h => absurd ?_ h⟩
      exact forall_mem_nil _
    | arr items =>
      dsimp only
      have hitem : ∀ e : Json × ℕ, (identified e.1 = true → ∃ node, (do
            let identity ← coerceChildIdentity n.currentId e.1
            return (⟨e.1, n.currentId, identity, some e.2⟩ : TraversalNode)) = .ok node) ∧
          (identified e.1 = false → (do
            let identity ← coerceChildIdentity n.currentId e.1
            return (⟨e.1, n.currentId, identity, some e.2⟩ : TraversalNode)) = .error .unhashable) := by
        intro e
        refine ⟨fun he => ?_, fun he => ?_⟩
        · obtain ⟨id, hid⟩ := coerceChildIdentity_of_identified n.currentId he
          rw [hid]
          exact ⟨_, rfl⟩
        · rw [coerceChildIdentity_of_not_identified he]
          rfl
      have hmem : (∀ v ∈ placesOf (.arr items), identified v.1 = true) ↔ ∀ e ∈ items.zipIdx, identified e.1 = true := by
        rw [placesOf, forall_mem_map, ← forall_mem_map (f := Prod.fst) (P := fun v => identified v = true),
          zipIdx_map_fst]
      rw [hmem]
      refine ⟨fun hall => ?_, fun hno => ?_⟩
      · obtain ⟨nodes, hnodes⟩ := mapM_ok _ _ fun e he => (hitem e).1 (hall e he)
        rw [hnodes]
        exact ⟨_, rfl, rfl⟩
      · rw [mapM_error .unhashable]
        · rfl
        · intro e _ x hx
          cases hident : identified e.1 with
          | true =>
            obtain ⟨node, hnode⟩ := (hitem e).1 hident
            rw [hnode] at hx
            cases hx
          | false =>
            rw [(hitem e).2 hident] at hx
            exact (Except.error.inj hx).symm
        · intro hall
          refine hno fun e he => ?_
          by_contra hident
          obtain ⟨node, hnode⟩ := hall e he
          rw [(hitem e).2 (Bool.eq_false_iff.2 hident)] at hnode
          cases hnode
    | _ =>
      simp only [placesOf, forall_mem_singleton]
      refine ⟨fun hident => ?_, fun hident => ?_⟩
      · obtain ⟨id, hid⟩ := coerceChildIdentity_of_identified n.currentId hident
        rw [hid]
        exact ⟨_, rfl, rfl⟩
      · rw [coerceChildIdentity_of_not_identified (Bool.eq_false_iff.2 hident)]
        rfl
  | _ =>
    refine ⟨fun _ => ⟨none, rfl, rfl⟩, fun h => absurd ?_ h⟩
    exact forall_mem_nil _

/-- lists without repetitions have one element if all elements are equal -/
theorem length_dedup_le_one_iff {α : Type} [DecidableEq α] {l : List α} :
    l.dedup.length ≤ 1 ↔ ∀ a ∈ l, ∀ b ∈ l, a = b := by
  have hmem : (∀ a ∈ l, ∀ b ∈ l, a = b) ↔ ∀ a ∈ l.dedup, ∀ b ∈ l.dedup, a = b := by
    simp only [mem_dedup]
  rw [hmem]
  have hnodup := nodup_dedup l
  match l.dedup, hnodup with
  | [], _ => simp
  | [a], _ => simp
  | a :: b :: rest, hnodup =>
    refine iff_of_false (by simp) fun hall => ?_
    have hab : a = b := hall a (by simp) b (by simp)
    simp [hab] at hnodup

theorem cardinalityOf_inj {v w : Json} : cardinalityOf v = cardinalityOf w ↔ isList v = isList w := by
  rw [cardinalityOf, cardinalityOf]
  cases isList v <;> cases isList w <;> decide

theorem isNull_iff : v.isNull = true ↔ v = .null := by
  cases v <;> simp [Json.isNull]

variable {segment : String} {nodes : List TraversalNode}

/-- what the nodes of a step are found to be -/
theorem descend_found
    {found : List (Option (Cardinality × List TraversalNode))} (h : nodes.mapM (childNodes segment) = .ok found) :
    (found.reduceOption.flatMap Prod.snd).map TraversalNode.place =
        stepTo segment (nodes.map TraversalNode.place) ∧
      ((found.reduceOption.map Prod.fst).dedup.length ≤ 1 ↔
        ∀ v ∈ nodes.map TraversalNode.place, ∀ w ∈ nodes.map TraversalNode.place, childAt segment v.1 ≠ .null →
          childAt segment w.1 ≠ .null → isList (childAt segment v.1) = isList (childAt segment w.1)) := by
  have hall := forall₂_of_mapM h
  have hplaces := map_eq_of_forall₂ (f := fun n => (childrenOf segment n.owner).map Child.node)
    (g := fun o => (o.map Prod.snd).getD []) (fun n o ho => (childNodes_ok ho).1) hall
  have hcards := map_eq_of_forall₂ (f := fun n : TraversalNode => if (childAt segment n.value).isNull then none
      else some (cardinalityOf (childAt segment n.value))) (g := Option.map Prod.fst) (fun n o ho => by
    by_cases hident : ∀ v ∈ placesOf (childAt segment n.value), identified v.1 = true
    · obtain ⟨o', ho', hcard⟩ := (childNodes_eq segment n).1 hident
      rw [ho'] at ho
      rw [← Except.ok.inj ho]
      exact hcard
    · rw [(childNodes_eq segment n).2 hident] at ho
      cases ho) hall
  refine ⟨?_, ?_⟩
  · rw [flatMap_reduceOption, hplaces, map_flatten, List.map_map, stepTo, flatMap_map, flatMap_def]
    congr 1
    refine map_congr_left fun n _ => ?_
    rw [Function.comp_apply, List.map_map]
    exact childrenOf_places segment n.owner
  · have hseen : found.reduceOption.map Prod.fst = (found.map (Option.map Prod.fst)).reduceOption := by
      rw [List.reduceOption, List.reduceOption, filterMap_map, map_filterMap]
      rfl
    have hmem : ∀ c, c ∈ found.reduceOption.map Prod.fst ↔ ∃ v ∈ nodes.map TraversalNode.place,
        childAt segment v.1 ≠ .null ∧ cardinalityOf (childAt segment v.1) = c := by
      intro c
      rw [hseen, hcards, List.reduceOption, mem_filterMap]
      constructor
      · rintro ⟨o, ho, rfl⟩
        obtain ⟨n, hn, heq⟩ := mem_map.1 ho
        split_ifs at heq with hnull
        exact ⟨n.place, mem_map_of_mem hn, fun hno => hnull (isNull_iff.2 hno), Option.some.inj heq⟩
      · rintro ⟨v, hv, hnull, rfl⟩
        obtain ⟨n, hn, rfl⟩ := mem_map.1 hv
        exact ⟨_, mem_map.2 ⟨n, hn, if_neg fun hno => hnull (isNull_iff.1 hno)⟩, rfl⟩
    rw [length_dedup_le_one_iff]
    constructor
    · intro hone v hv w hw hvnull hwnull
      exact cardinalityOf_inj.1 (hone _ ((hmem _).2 ⟨v, hv, hvnull, rfl⟩) _ ((hmem _).2 ⟨w, hw, hwnull, rfl⟩))
    · intro halike a ha b hb
      obtain ⟨v, hv, hvnull, rfl⟩ := (hmem a).1 ha
      obtain ⟨w, hw, hwnull, rfl⟩ := (hmem b).1 hb
      exact cardinalityOf_inj.2 (halike v hv w hw hvnull hwnull)

theorem mem_stepTo {P : Json × Bool → Prop} : (∀ v ∈ stepTo segment (nodes.map TraversalNode.place), P v) ↔
      ∀ n ∈ nodes, ∀ v ∈ placesOf (childAt segment n.value), P v := by
  rw [stepTo]
  simp only [mem_flatMap, mem_map, TraversalNode.place]
  constructor
  · exact fun h n hn v hv => h v ⟨_, ⟨n, hn, rfl⟩, hv⟩
  · rintro h v ⟨_, ⟨n, hn, rfl⟩, hv⟩
    exact h n hn v hv

theorem descend_of_found {segment stepPath : String}
    {found : List (Option (Cardinality × List TraversalNode))} (h : nodes.mapM (childNodes segment) = .ok found) :
    descend segment stepPath nodes =
      if found.reduceOption.flatMap Prod.snd = [] ∧ nodes ≠ [] then .error (.missing stepPath)
      else if 1 < (found.reduceOption.map Prod.fst).dedup.length then .error (.inconsistent stepPath)
      else .ok (found.reduceOption.flatMap Prod.snd, (found.reduceOption.map Prod.fst).dedup.head?.getD .one) := by
  rw [descend, h]
  change (if _ then _ else _) = _
  split_ifs <;> rfl

/-- **A step** is taken, or it is missing, or it fails for another reason. -/
theorem descend_cases (segment stepPath : String) (nodes : List TraversalNode) :
    (Passes segment (nodes.map TraversalNode.place) ∧ ∃ next card, descend segment stepPath nodes = .ok (next, card) ∧
        next.map TraversalNode.place = stepTo segment (nodes.map TraversalNode.place)) ∨
      (¬ Passes segment (nodes.map TraversalNode.place) ∧ ∃ e, descend segment stepPath nodes = .error e ∧
        ∀ p, e = .missing p ↔ p = stepPath ∧ stepTo segment (nodes.map TraversalNode.place) = [] ∧
          nodes.map TraversalNode.place ≠ []) := by
  by_cases hident : ∀ v ∈ stepTo segment (nodes.map TraversalNode.place), identified v.1 = true
  · obtain ⟨found, hfound⟩ := mapM_ok (childNodes segment) nodes fun n hn => by
      obtain ⟨o, ho, -⟩ := (childNodes_eq segment n).1 (mem_stepTo.1 hident n hn)
      exact ⟨o, ho⟩
    obtain ⟨hplaces, hone⟩ := descend_found hfound
    rw [descend_of_found hfound]
    by_cases hmissing : found.reduceOption.flatMap Prod.snd = [] ∧ nodes ≠ []
    · right
      have hnone : stepTo segment (nodes.map TraversalNode.place) = [] := by
        rw [← hplaces, hmissing.1, map_nil]
      have hsome : nodes.map TraversalNode.place ≠ [] := fun h => hmissing.2 (map_eq_nil_iff.1 h)
      refine ⟨fun h => hsome (h.found hnone), .missing stepPath, if_pos hmissing, fun p => ?_⟩
      exact ⟨fun h => ⟨(PathError.missing.inj h).symm, hnone, hsome⟩, fun h => by rw [h.1]⟩
    · rw [if_neg hmissing]
      have hnext : stepTo segment (nodes.map TraversalNode.place) = [] → nodes.map TraversalNode.place = [] := by
        intro hnone
        rw [← hplaces, map_eq_nil_iff] at hnone
        by_contra hsome
        exact hmissing ⟨hnone, fun h => hsome (map_eq_nil_iff.2 h)⟩
      by_cases hseen : 1 < (found.reduceOption.map Prod.fst).dedup.length
      · right
        refine ⟨fun h => absurd (hone.2 h.alike) (Nat.not_le.2 hseen), .inconsistent stepPath, if_pos hseen,
          fun p => ?_⟩
        exact iff_of_false (fun h => nomatch h) fun h => h.2.2 (hnext h.2.1)
      · left
        exact ⟨⟨hident, hnext, hone.1 (Nat.not_lt.1 hseen)⟩, _, _, if_neg hseen, hplaces⟩
  · right
    refine ⟨fun h => hident h.identities, .unhashable, ?_, fun p => ?_⟩
    · rw [descend, mapM_error .unhashable]
      · rfl
      · intro n _ e he
        by_cases hn : ∀ v ∈ placesOf (childAt segment n.value), identified v.1 = true
        · obtain ⟨o, ho, -⟩ := (childNodes_eq segment n).1 hn
          rw [ho] at he
          cases he
        · rw [(childNodes_eq segment n).2 hn] at he
          exact (Except.error.inj he).symm
      · intro hall
        refine hident (mem_stepTo.2 fun n hn => ?_)
        by_contra hno
        obtain ⟨o, ho⟩ := hall n hn
        rw [(childNodes_eq segment n).2 hno] at ho
        cases ho
    · refine iff_of_false (fun h => nomatch h) ?_
      rintro ⟨-, hnone, -⟩
      refine hident fun v hv => ?_
      rw [hnone] at hv
      cases hv

/-- the text of a step -/
def stepPath (root : String) (steps : List String) : String := ".".intercalate (root :: steps)

structure EndsAt (segs : List String) (places : List (Json × Bool)) (done : List String) (segment : String) : Prop where
  step : done ++ [segment] <+: segs
  walked : Walkable done places
  some : reached done places ≠ []
  none : stepTo segment (reached done places) = []

/-- a walk ends where it begins, or one step later -/
theorem endsAt_cons_iff {next : String} {segs : List String} {places : List (Json × Bool)} {done : List String} : EndsAt (next :: segs) places done segment ↔
      (done = [] ∧ segment = next ∧ places ≠ [] ∧ stepTo segment places = []) ∨
      ∃ rest, done = next :: rest ∧ Passes next places ∧ EndsAt segs (stepTo next places) rest segment := by
  constructor
  · rintro ⟨hstep, hwalked, hsome, hnone⟩
    cases done with
    | nil =>
      rw [nil_append, cons_prefix_cons] at hstep
      exact .inl ⟨rfl, hstep.1, hsome, hnone⟩
    | cons first rest =>
      rw [cons_append, cons_prefix_cons] at hstep
      obtain ⟨rfl, hstep⟩ := hstep
      exact .inr ⟨rest, rfl, hwalked.1, hstep, hwalked.2, hsome, hnone⟩
  · rintro (⟨rfl, rfl, hsome, hnone⟩ | ⟨rest, rfl, hpasses, hstep, hwalked, hsome, hnone⟩)
    · exact ⟨by simp, trivial, hsome, hnone⟩
    · exact ⟨by simpa using hstep, ⟨hpasses, hwalked⟩, hsome, hnone⟩

/-- **A walk** that can be taken to its end leads to the values there. -/
theorem walk_of_walkable (root : String) {segs : List String} (behind : List String)
    (card : Cardinality) (h : Walkable segs (nodes.map TraversalNode.place)) : ∃ nodes' card', walk root behind segs (nodes, card) =
      .ok (nodes', card') ∧ nodes'.map TraversalNode.place = reached segs (nodes.map TraversalNode.place) := by
  induction segs generalizing behind nodes card with
  | nil => exact ⟨nodes, card, rfl, rfl⟩
  | cons segment segs ih =>
    rcases descend_cases segment (stepPath root (behind ++ [segment])) nodes with
      ⟨-, next, card', hdescend, hplaces⟩ | ⟨hno, -⟩
    · have hwalk := h.2
      rw [← hplaces] at hwalk
      obtain ⟨nodes', card'', hok, hreached⟩ := ih (behind ++ [segment]) card' hwalk
      refine ⟨nodes', card'', ?_, ?_⟩
      · exact (congrArg (· >>= fun acc => walk root (behind ++ [segment]) segs acc) hdescend).trans hok
      · rw [hreached, hplaces]
        rfl
    · exact absurd h.1 hno

/-- a walk that ends well could be taken to its end -/
theorem walkable_of_walk {root : String} {segs behind : List String} {card : Cardinality}
    {r : List TraversalNode × Cardinality} (h : walk root behind segs (nodes, card) = .ok r) :
    Walkable segs (nodes.map TraversalNode.place) := by
  induction segs generalizing behind nodes card with
  | nil => trivial
  | cons segment segs ih =>
    obtain ⟨⟨next, card'⟩, hdescend, h⟩ := of_bind_ok h
    rcases descend_cases segment (stepPath root (behind ++ [segment])) nodes with
      ⟨hpasses, next', card'', hdescend', hplaces⟩ | ⟨-, e, he, -⟩
    · obtain ⟨rfl, rfl⟩ := Prod.mk.inj (Except.ok.inj (hdescend.symm.trans hdescend'))
      refine ⟨hpasses, ?_⟩
      rw [← hplaces]
      exact ih h
    · cases hdescend.symm.trans he

/-- **A missing step** is reported exactly where a walk ends. -/
theorem walk_missing_iff {root : String} {segs behind : List String} {card : Cardinality}
    {p : String} : walk root behind segs (nodes, card) = .error (.missing p) ↔
      ∃ done segment, EndsAt segs (nodes.map TraversalNode.place) done segment ∧
        p = stepPath root (behind ++ done ++ [segment]) := by
  induction segs generalizing behind nodes card with
  | nil =>
    refine iff_of_false (fun h => nomatch h) ?_
    rintro ⟨done, segment, hends, -⟩
    simpa using hends.step
  | cons segment segs ih =>
    rcases descend_cases segment (stepPath root (behind ++ [segment])) nodes with
      ⟨hpasses, next, card', hdescend, hplaces⟩ | ⟨hno, e, hdescend, hmissing⟩
    · have hwalk : (descend segment (stepPath root (behind ++ [segment])) nodes >>= fun acc =>
          walk root (behind ++ [segment]) segs acc) = walk root (behind ++ [segment]) segs (next, card') := by
        rw [hdescend]
        rfl
      refine (Eq.congr_left hwalk).trans (ih.trans ?_)
      rw [hplaces]
      constructor
      · rintro ⟨done, last, hends, rfl⟩
        exact ⟨segment :: done, last, endsAt_cons_iff.2 (.inr ⟨done, rfl, hpasses, hends⟩), by simp⟩
      · rintro ⟨done, last, hends, rfl⟩
        rcases endsAt_cons_iff.1 hends with ⟨-, rfl, hsome, hnone⟩ | ⟨rest, rfl, -, hends⟩
        · exact absurd (hpasses.found hnone) hsome
        · exact ⟨rest, last, hends, by simp⟩
    · have hwalk : (descend segment (stepPath root (behind ++ [segment])) nodes >>= fun acc =>
          walk root (behind ++ [segment]) segs acc) = .error e := by
        rw [hdescend]
        rfl
      refine (Eq.congr_left hwalk).trans ?_
      constructor
      · intro he
        obtain ⟨rfl, hnone, hsome⟩ := (hmissing p).1 (Except.error.inj he)
        exact ⟨[], segment, endsAt_cons_iff.2 (.inl ⟨rfl, rfl, hsome, hnone⟩), by simp⟩
      · rintro ⟨done, last, hends, rfl⟩
        rcases endsAt_cons_iff.1 hends with ⟨rfl, rfl, hsome, hnone⟩ | ⟨rest, rfl, hpasses, -⟩
        · exact congrArg Except.error ((hmissing _).2 ⟨by simp, hnone, hsome⟩)
        · exact absurd hpasses hno

/-- the records that are objects -/
def starts (records : List Json) : List (Json × Bool) :=
  records.filterMap fun
    | .obj entries => some (.obj entries, false)
    | _ => none

/-- the keys of the records can be looked at -/
def HashableKeys (primaryKey : Option String) (records : List Json) : Prop :=
  ∀ record ∈ records, ∀ entries, record = .obj entries →
    hashable (field entries (if primaryKey.getD "" = "" then "id" else primaryKey.getD "")) = true

variable {primaryKey : Option String} {record : Json}

theorem initialNode_ok (index : ℕ) (h : ∀ entries, record = .obj entries →
      hashable (field entries (if primaryKey.getD "" = "" then "id" else primaryKey.getD "")) = true) :
    ∃ node, initialNode primaryKey index record = .ok node ∧
      node.map TraversalNode.place = (starts [record]).head? := by
  cases record with
  | obj entries =>
    obtain ⟨b, hb⟩ := isMissing_of_hashable (h entries rfl)
    rw [initialNode, hb]
    exact ⟨_, rfl, rfl⟩
  | _ => exact ⟨none, rfl, rfl⟩

theorem initialNode_error {index : ℕ} {e : PathError}
    (h : initialNode primaryKey index record = .error e) : e = .unhashable := by
  cases record with
  | obj entries =>
    rw [initialNode] at h
    by_cases hkey : hashable (field entries (if primaryKey.getD "" = "" then "id" else primaryKey.getD "")) = true
    · obtain ⟨b, hb⟩ := isMissing_of_hashable hkey
      rw [hb] at h
      cases h
    · rw [isMissing_of_not_hashable (Bool.eq_false_iff.2 hkey)] at h
      exact (Except.error.inj h).symm
  | _ => cases h

/-- a record whose key can not be looked at raises -/
theorem hashable_of_initialNode {index : ℕ} {node : Option TraversalNode}
    (h : initialNode primaryKey index record = .ok node) : ∀ entries, record = .obj entries →
      hashable (field entries (if primaryKey.getD "" = "" then "id" else primaryKey.getD "")) = true := by
  rintro entries rfl
  by_contra hkey
  rw [initialNode, isMissing_of_not_hashable (Bool.eq_false_iff.2 hkey)] at h
  cases h

/-- the walk begins at the records that are objects, if their keys can be looked at -/
theorem initialNodes_of_hashable {records : List Json}
    (h : HashableKeys primaryKey records) : ∃ nodes, initialNodes primaryKey records = .ok nodes ∧
      nodes.map TraversalNode.place = starts records := by
  have hmem : ∀ e ∈ records.zipIdx, e.1 ∈ records := fun e he => by
    rw [(mem_zipIdx' he).2]
    exact getElem_mem _
  obtain ⟨found, hfound⟩ := mapM_ok (fun e : Json × ℕ => initialNode primaryKey e.2 e.1) records.zipIdx fun e he => by
    obtain ⟨node, hnode, -⟩ := initialNode_ok e.2 (h e.1 (hmem e he))
    exact ⟨node, hnode⟩
  refine ⟨found.reduceOption, ?_, ?_⟩
  · rw [initialNodes, hfound]
    rfl
  · have hplaces := map_eq_of_forall₂ (f := fun e : Json × ℕ => (starts [e.1]).head?)
      (g := Option.map TraversalNode.place) (fun e o ho => by
        obtain ⟨node, hnode, hplace⟩ := initialNode_ok e.2 (hashable_of_initialNode ho)
        rw [ho] at hnode
        rw [Except.ok.inj hnode]
        exact hplace) (forall₂_of_mapM hfound)
    have hreduce : found.reduceOption.map TraversalNode.place =
        (found.map (Option.map TraversalNode.place)).reduceOption := by
      rw [List.reduceOption, List.reduceOption, filterMap_map, map_filterMap]
      rfl
    have hfst : records.zipIdx.map (fun e => (starts [e.1]).head?) = records.map fun r => (starts [r]).head? := by
      conv_rhs => rw [← zipIdx_map_fst 0 records, List.map_map]
      rfl
    rw [hreduce, hplaces, hfst, List.reduceOption, filterMap_map]
    refine filterMap_congr fun r _ => ?_
    cases r <;> rfl

theorem initialNodes_of_not_hashable {records : List Json}
    (h : ¬ HashableKeys primaryKey records) : initialNodes primaryKey records = .error .unhashable := by
  rw [initialNodes, mapM_error .unhashable]
  · rfl
  · exact fun e _ x hx => initialNode_error hx
  · intro hall
    refine h fun record hrecord => ?_
    obtain ⟨i, hi, rfl⟩ := mem_iff_getElem.1 hrecord
    obtain ⟨node, hnode⟩ := hall (records[i], i) (mk_mem_zipIdx_iff_getElem?.2 (getElem?_eq_getElem hi))
    exact hashable_of_initialNode hnode

end Langbridge.Runtime
