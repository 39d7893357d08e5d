/-
The identities of nested rows. The rows of a nested path are the children that the path reaches below the records: each
has the identity of its owner (the owner's id, or the nearest one above it, or the position of the record), its index if
it stands in a list, and its own fields. Under which column they are merged is chosen from the columns they have.
-/
import Langbridge.Runtime.ApiSync
import Mathlib.Data.List.ReduceOption

namespace Langbridge.Runtime

open Core List Dict PyText

/-! ## The children a path reaches -/

/-- a value that is neither `None` nor empty, or what stands for it -/
def present (fallback : Json) : Json → Json
  | .null => fallback
  | .str s => if s = "" then fallback else .str s
  | v => v

/-- the identity of a value: its `id`, or that of what it stands under -/
def identityOf (fallback : Json) : Json → Json
  | .obj entries => present fallback (field entries "id")
  | _ => fallback

/-- a value that a path ends at, with the identity of its owner and its place in the owner's list -/
structure Child where
  parent : Json
  index : Option ℕ
  value : Json

/-- a value with its identity -/
abbrev Owner : Type := Json × Json

def Child.owner (c : Child) : Owner := (identityOf c.parent c.value, c.value)

/-- what a segment leads to from a value -/
def childrenOf (segment : String) (o : Owner) : List Child :=
  match o.2 with
  | .obj entries =>
    match field entries segment with
    | .null => []
    | .arr items => items.zipIdx.map fun e => ⟨o.1, some e.2, e.1⟩
    | child => [⟨o.1, none, child⟩]
  | _ => []

/-- what some segments lead to from a value -/
def below : List String → Owner → List Owner
  | [], o => [o]
  | segment :: rest, o => (childrenOf segment o).flatMap fun c => below rest c.owner

/-- the records that are objects, each with its key or its position -/
def roots (primaryKey : Option String) (records : List Json) : List Owner :=
  records.zipIdx.filterMap fun e =>
    match e.1 with
    | .obj entries =>
      let key := primaryKey.getD ""
      some (present (.int e.2) (field entries (if key = "" then "id" else key)), .obj entries)
    | _ => none

/-! ## The walk reaches them -/

def TraversalNode.owner (n : TraversalNode) : Owner := (n.currentId, n.value)

def Child.node (c : Child) : TraversalNode := ⟨c.value, c.parent, (c.owner).1, c.index⟩

theorem present_of_isMissing {v fallback : Json} {b : Bool} (h : isMissing v = .ok b) :
    (if b = true then fallback else v) = present fallback v := by
  cases v with
  | null =>
    cases h
    rfl
  | str s =>
    cases h
    change (if decide (s = "") = true then fallback else .str s) = if s = "" then fallback else .str s
    simp only [decide_eq_true_eq]
  | arr items => cases h
  | obj entries => cases h
  | bool b' =>
    cases h
    rfl
  | int i =>
    cases h
    rfl
  | float t =>
    cases h
    rfl

theorem coerceChildIdentity_ok {fallback v id : Json} (h : coerceChildIdentity fallback v = .ok id) :
    id = identityOf fallback v := by
  unfold coerceChildIdentity at h
  split at h
  · obtain ⟨b, hb, h⟩ := of_bind_ok h
    cases h
    exact present_of_isMissing hb
  · rename_i hobj
    cases h
    cases v with
    | obj entries => exact absurd rfl (hobj entries)
    | _ => rfl

theorem mapM_ok_eq {ε α β : Type} {f : α → Except ε β} {g : α → β} (hfg : ∀ a b, f a = .ok b → b = g a) {l : List α}
    {r : List β} (h : l.mapM f = .ok r) : r = l.map g := by
  rw [← List.map_id r]
  exact map_eq_of_forall₂ hfg (forall₂_of_mapM h)

variable {segment : String}

/-- the nodes of one node are those of its children, which all have an index or none -/
theorem childNodes_ok {n : TraversalNode} {found : Option (Cardinality × List TraversalNode)}
    (h : childNodes segment n = .ok found) :
    (found.map Prod.snd).getD [] = (childrenOf segment n.owner).map Child.node ∧
      ∀ e ∈ found, ∀ c ∈ childrenOf segment n.owner, c.index.isSome = true ↔ e.1 = .many := by
  unfold childNodes at h
  unfold childrenOf TraversalNode.owner
  cases hvalue : n.value with
  | obj entries =>
    cases hfield : field entries segment with
    | null =>
      simp only [hvalue, hfield] at h ⊢
      cases h
      exact ⟨rfl, fun e he => (by cases he)⟩
    | arr items =>
      simp only [hvalue, hfield] at h ⊢
      obtain ⟨nodes, hnodes, h⟩ := of_bind_ok h
      cases h
      refine ⟨?_, ?_⟩
      · have hnode : ∀ (e : Json × ℕ) (node : TraversalNode),
            (do
              let identity ← coerceChildIdentity n.currentId e.1
              return (⟨e.1, n.currentId, identity, some e.2⟩ : TraversalNode)) = .ok node →
            node = Child.node ⟨n.currentId, some e.2, e.1⟩ := by
          intro e node hnode
          obtain ⟨id, hid, hnode⟩ := of_bind_ok hnode
          cases hnode
          rw [coerceChildIdentity_ok hid]
          rfl
        have hmap := mapM_ok_eq hnode hnodes
        rw [Option.map_some, Option.getD_some, hmap, List.map_map]
        rfl
      · intro e he c hc
        cases he
        obtain ⟨x, _, rfl⟩ := mem_map.1 hc
        exact iff_of_true rfl rfl
    | _ =>
      simp only [hvalue, hfield] at h ⊢
      obtain ⟨id, hid, h⟩ := of_bind_ok h
      cases h
      refine ⟨?_, ?_⟩
      · rw [Option.map_some, Option.getD_some, coerceChildIdentity_ok hid]
        rfl
      · intro e he c hc
        cases he
        obtain rfl := mem_singleton.1 hc
        exact iff_of_false Bool.false_ne_true fun h => (by cases h)
  | _ =>
    simp only [hvalue] at h
    cases h
    exact ⟨rfl, fun e he => (by cases he)⟩

theorem flatMap_reduceOption {α β : Type} (l : List (Option (α × List β))) :
    l.reduceOption.flatMap Prod.snd = (l.map fun o => (o.map Prod.snd).getD []).flatten := by
  induction l with
  | nil => rfl
  | cons o l ih =>
    cases o with
    | none => exact ih
    | some e => exact congrArg (e.2 ++ ·) ih

/-- a step of the walk goes from the nodes to those of their children, which all have an index or none -/
theorem descend_ok {segment stepPath : String} {nodes next : List TraversalNode} {card : Cardinality}
    (h : descend segment stepPath nodes = .ok (next, card)) :
    next = ((nodes.map TraversalNode.owner).flatMap (childrenOf segment)).map Child.node ∧
      ∀ c ∈ (nodes.map TraversalNode.owner).flatMap (childrenOf segment), c.index.isSome = true ↔ card = .many := by
  obtain ⟨found, hfound, h⟩ := of_bind_ok h
  have hall := forall₂_of_mapM hfound
  have hnext : found.reduceOption.flatMap Prod.snd =
      ((nodes.map TraversalNode.owner).flatMap (childrenOf segment)).map Child.node := by
    rw [flatMap_reduceOption, map_eq_of_forall₂ (f := fun n => (childrenOf segment n.owner).map Child.node)
      (fun n o ho => (childNodes_ok ho).1) hall, flatMap_map, map_flatMap, flatMap_def]
  by_cases hmissing : found.reduceOption.flatMap Prod.snd = [] ∧ nodes ≠ []
  · rw [if_pos hmissing] at h
    cases h
  rw [if_neg hmissing] at h
  by_cases hseen : 1 < (found.reduceOption.map Prod.fst).dedup.length
  · rw [if_pos hseen] at h
    cases h
  · rw [if_neg hseen] at h
    cases h
    refine ⟨hnext, ?_⟩
    intro c hc
    obtain ⟨o, ho, hc⟩ := mem_flatMap.1 hc
    obtain ⟨n, hn, rfl⟩ := mem_map.1 ho
    obtain ⟨e, he, hok⟩ := forall₂_exists_right hall n hn
    obtain ⟨hnodes, hcard⟩ := childNodes_ok hok
    cases e with
    | none =>
      rw [Option.map_none, Option.getD_none, eq_comm, map_eq_nil_iff] at hnodes
      rw [hnodes] at hc
      cases hc
    | some e =>
      -- one cardinality was seen, that of this node
      have hmem : e.1 ∈ (found.reduceOption.map Prod.fst).dedup :=
        mem_dedup.2 (mem_map.2 ⟨e, mem_filterMap.2 ⟨some e, he, rfl⟩, rfl⟩)
      have hone : (found.reduceOption.map Prod.fst).dedup = [e.1] := by
        generalize (found.reduceOption.map Prod.fst).dedup = seen at hmem hseen
        match seen, hmem, hseen with
        | [x], hmem, _ => rw [mem_singleton.1 hmem]
        | _ :: _ :: _, _, hseen => exact absurd (by rw [length_cons, length_cons]; omega) hseen
      rw [hone]
      exact hcard e rfl c hc

theorem below_cons (segment : String) (rest : List String) (owners : List Owner) :
    owners.flatMap (below (segment :: rest)) =
      ((owners.flatMap (childrenOf segment)).map Child.owner).flatMap (below rest) := by
  rw [flatMap_map, flatMap_assoc]
  rfl

variable {last : String} {segs : List String}

/-- the walk along a path ends at the nodes of the children below the nodes it began at -/
theorem walk_ok {root : String} {behind : List String} {nodes nodes' : List TraversalNode} {card card' : Cardinality}
    (h : walk root behind (segs ++ [last]) (nodes, card) = .ok (nodes', card')) :
    nodes' = (((nodes.map TraversalNode.owner).flatMap (below segs)).flatMap (childrenOf last)).map Child.node ∧
      ∀ c ∈ ((nodes.map TraversalNode.owner).flatMap (below segs)).flatMap (childrenOf last),
        c.index.isSome = true ↔ card' = .many := by
  induction segs generalizing behind nodes card with
  | nil =>
    obtain ⟨acc, hstep, h⟩ := of_bind_ok h
    cases h
    have hself : ∀ owners : List Owner, owners.flatMap (below []) = owners :=
      fun owners => flatMap_singleton' owners
    rw [hself]
    exact descend_ok hstep
  | cons segment segs ih =>
    obtain ⟨⟨next, card₁⟩, hstep, h⟩ := of_bind_ok h
    obtain ⟨rfl, _⟩ := descend_ok hstep
    have hrest := ih h
    rw [List.map_map] at hrest
    rw [below_cons]
    exact hrest

variable {primaryKey : Option String} {records : List Json}

/-- the walk begins at the records that are objects -/
theorem initialNodes_ok {nodes : List TraversalNode}
    (h : initialNodes primaryKey records = .ok nodes) : nodes.map TraversalNode.owner = roots primaryKey records := by
  unfold initialNodes at h
  cases hfound : records.zipIdx.mapM fun e => initialNode primaryKey e.2 e.1 with
  | error e =>
    rw [hfound] at h
    cases h
  | ok found =>
    rw [hfound] at h
    cases h
    have hall := forall₂_of_mapM hfound
    have howners := map_eq_of_forall₂ (g := Option.map TraversalNode.owner) (f := fun e : Json × ℕ =>
      match e.1 with
      | .obj entries =>
        let key := primaryKey.getD ""
        some (present (.int e.2) (field entries (if key = "" then "id" else key)), .obj entries)
      | _ => none) (fun e o ho => by
        obtain ⟨v, i⟩ := e
        cases v with
        | obj entries =>
          obtain ⟨b, hb, ho⟩ := of_bind_ok ho
          cases ho
          have hid := @present_of_isMissing _ (.int i) _ hb
          exact congrArg (fun id => some (id, Json.obj entries)) hid
        | _ =>
          cases ho
          rfl) hall
    have hreduce : found.reduceOption.map TraversalNode.owner =
        (found.map (Option.map TraversalNode.owner)).reduceOption := by
      rw [List.reduceOption, List.reduceOption, filterMap_map, map_filterMap]
      rfl
    rw [hreduce, howners, List.reduceOption, filterMap_map]
    rfl

/-! ## The columns of a child's row -/

section Columns

variable [PyText]

def isScalar : Json → Bool
  | .obj _ => false
  | .arr _ => false
  | _ => true

/-- a field that a row has as a column -/
def gives (column : String) (e : String × Json) : Bool := strip e.1 = column && isScalar e.2

/-- the value that the fields of a value give a column; a value without fields is the column `value` -/
def ownField (column : String) : Json → Option Json
  | .obj entries => (entries.reverse.find? (gives column)).map Prod.snd
  | v => if column = "value" then some v else none

/-- a column that no flattened object has -/
def Plain (column : String) : Prop := column ≠ "" ∧ ∀ a b : String, a ++ "__" ++ b ≠ column

variable {column : String}

omit [PyText] in
theorem plain_of_not_mem_infixes (hne : column ≠ "") (h : ¬['_', '_'] <:+: column.toList) : Plain column := by
  refine ⟨hne, ?_⟩
  rintro a b rfl
  refine h ⟨a.toList, b.toList, ?_⟩
  rw [String.toList_append, String.toList_append]
  rfl

mutual

theorem flattenMapping_get? {column : String} (hc : Plain column) :
    ∀ (entries : List (String × Json)) (fieldPrefix : String) (row row' : Row),
      flattenMapping fieldPrefix row entries = .ok row' → row'.get? column = row.get? column
  | [], _, _, _, h => by
    cases h
    rfl
  | (rawKey, value) :: entries, fieldPrefix, row, row', h => by
    rw [flattenMapping] at h
    by_cases hblank : strip rawKey = ""
    · rw [if_pos hblank] at h
      exact flattenMapping_get? hc entries fieldPrefix row row' h
    · rw [if_neg hblank] at h
      split at h
      · cases h
      · rename_i row₁ hvalue
        rw [flattenMapping_get? hc entries fieldPrefix row₁ row' h]
        exact flattenValue_get? hc value fieldPrefix _ row row₁ hvalue

theorem flattenValue_get? {column : String} (hc : Plain column) :
    ∀ (value : Json) (fieldPrefix childName : String) (row row' : Row),
      flattenValue fieldPrefix (fieldPrefix ++ "__" ++ childName) row value = .ok row' →
        row'.get? column = row.get? column
  | .obj entries, fieldPrefix, childName, row, row', h => by
    exact flattenMapping_get? hc entries _ row row' h
  | .arr _, _, _, _, _, h => by
    cases h
  | .null, fieldPrefix, childName, row, _, h => by
    cases h
    exact get?_set_of_ne _ _ (hc.2 fieldPrefix childName).symm
  | .bool _, fieldPrefix, childName, row, _, h => by
    cases h
    exact get?_set_of_ne _ _ (hc.2 fieldPrefix childName).symm
  | .int _, fieldPrefix, childName, row, _, h => by
    cases h
    exact get?_set_of_ne _ _ (hc.2 fieldPrefix childName).symm
  | .float _, fieldPrefix, childName, row, _, h => by
    cases h
    exact get?_set_of_ne _ _ (hc.2 fieldPrefix childName).symm
  | .str _, fieldPrefix, childName, row, _, h => by
    cases h
    exact get?_set_of_ne _ _ (hc.2 fieldPrefix childName).symm

end

variable {flattenPaths : List String}

/-- one entry gives a plain column its own value, if it has the name of the column -/
theorem materializeEntry_get? (hc : Plain column) {row row' : Row}
    {entry : String × Json} (h : materializeEntry flattenPaths row entry = .ok row') :
    row'.get? column = if gives column entry = true then some entry.2 else row.get? column := by
  obtain ⟨rawKey, value⟩ := entry
  unfold materializeEntry at h
  unfold gives
  dsimp only at h ⊢
  by_cases hblank : strip rawKey = ""
  · rw [if_pos hblank] at h
    cases h
    have hne : strip rawKey ≠ column := by
      rw [hblank]
      exact hc.1.symm
    rw [decide_eq_false hne, Bool.false_and, if_neg Bool.false_ne_true]
  · rw [if_neg hblank] at h
    split at h
    · rename_i entries
      rw [isScalar, Bool.and_false, if_neg Bool.false_ne_true]
      split_ifs at h
      · exact flattenMapping_get? hc entries _ row row' h
      · cases h
        rfl
    · rw [isScalar, Bool.and_false, if_neg Bool.false_ne_true]
      split_ifs at h
      cases h
      rfl
    · rename_i hobj harr
      have hscalar : isScalar value = true := by
        cases value with
        | obj entries => exact absurd rfl (hobj entries)
        | arr items => exact absurd rfl (harr items)
        | _ => rfl
      cases h
      rw [hscalar, Bool.and_true, get?_set]
      by_cases heq : column = strip rawKey
      · rw [if_pos heq, if_pos (decide_eq_true heq.symm)]
      · rw [if_neg heq, decide_eq_false (Ne.symm heq), if_neg Bool.false_ne_true]

theorem materializeValue_get? (hc : Plain column) {value : Json}
    {row : Row} (h : materializeValue flattenPaths value = .ok row) : row.get? column = ownField column value := by
  have hentries : ∀ (entries : List (String × Json)) (row row' : Row),
      entries.foldlM (materializeEntry flattenPaths) row = .ok row' →
        row'.get? column = ((entries.reverse.find? (gives column)).map Prod.snd).or (row.get? column) := by
    intro entries
    induction entries with
    | nil =>
      intro row row' h
      cases h
      rfl
    | cons e entries ih =>
      intro row row' h
      obtain ⟨row₁, hentry, h⟩ := of_bind_ok h
      rw [ih row₁ row' h, materializeEntry_get? hc hentry, reverse_cons, find?_append, Option.map_or,
        Option.or_assoc]
      by_cases he : gives column e = true
      · rw [if_pos he, find?_cons_of_pos he]
        rfl
      · rw [if_neg he, find?_cons_of_neg he]
        rfl
  have hsimple : ∀ v : Json, (Dict.empty.set "value" v).get? column = if column = "value" then some v else none := by
    intro v
    rw [get?_set]
    rfl
  cases value with
  | obj entries =>
    have hrow := hentries entries _ row h
    rwa [get?_empty, Option.or_none] at hrow
  | _ =>
    cases h
    exact hsimple _

/-- the row of a child: its owner's identity, its index if it has one, and its own fields -/
structure RowOf (c : Child) (row : Row) : Prop where
  parent : row.get? "_parent_id" = some c.parent
  index : row.get? "_child_index" = (c.index.map fun i => Json.int i).or (ownField "_child_index" c.value)
  id : row.get? "id" = ownField "id" c.value

theorem nodeRow_ok {c : Child} {row : Row} (h : nodeRow flattenPaths true c.node = .ok row) : RowOf c row := by
  obtain ⟨own, hown, h⟩ := of_bind_ok h
  have hid :=
    materializeValue_get? (plain_of_not_mem_infixes (by decide) (by decide : ¬['_', '_'] <:+: "id".toList)) hown
  have hindex := materializeValue_get?
    (plain_of_not_mem_infixes (by decide) (by decide : ¬['_', '_'] <:+: "_child_index".toList)) hown
  cases hi : c.index with
  | none =>
    have hnode : c.node.childIndex = none := hi
    rw [hnode] at h
    cases h
    refine ⟨get?_set_self _ _ _, ?_, ?_⟩
    · rw [get?_set_of_ne _ _ (by decide), hi, hindex]
      rfl
    · rw [get?_set_of_ne _ _ (by decide), hid]
      rfl
  | some i =>
    have hnode : c.node.childIndex = some i := hi
    rw [hnode] at h
    cases h
    refine ⟨?_, ?_, ?_⟩
    · rw [get?_set_of_ne _ _ (by decide), get?_set_self]
      rfl
    · rw [get?_set_self, hi]
      rfl
    · rw [get?_set_of_ne _ _ (by decide), get?_set_of_ne _ _ (by decide), hid]
      rfl

/-- **The rows of a nested path** are those of the children it reaches below the records, which all have an index or
none. -/
theorem materializeApiResourceRows_children {path : String} {flatten : List String} {m : MaterializedRows}
    (hm : materializeApiResourceRows path records primaryKey flatten = .ok m) (hpath : relativeSegments m.resourcePath = segs ++ [last]) :
    List.Forall₂ RowOf (((roots primaryKey records).flatMap (below segs)).flatMap (childrenOf last)) m.rows ∧
      ∀ c ∈ ((roots primaryKey records).flatMap (below segs)).flatMap (childrenOf last),
        c.index.isSome = true ↔ m.cardinality = .many := by
  obtain ⟨normalized, hnormalized, hm⟩ := of_bind_ok hm
  obtain ⟨flattenPaths, hflatten, hm⟩ := of_bind_ok hm
  obtain ⟨root, hroot, hm⟩ := of_bind_ok hm
  obtain ⟨nodes, hnodes, hm⟩ := of_bind_ok hm
  obtain ⟨⟨nodes', card⟩, hwalk, hm⟩ := of_bind_ok hm
  obtain ⟨rows, hrows, hm⟩ := of_bind_ok hm
  cases hm
  rw [hpath] at hwalk hrows
  obtain ⟨rfl, hcard⟩ := walk_ok hwalk
  rw [initialNodes_ok hnodes] at hrows hcard
  refine ⟨?_, hcard⟩
  have hnested : decide (segs ++ [last] ≠ []) = true :=
    decide_eq_true (append_ne_nil_of_right_ne_nil _ (cons_ne_nil _ _))
  rw [hnested] at hrows
  have hall := forall₂_of_mapM hrows
  rw [List.forall₂_map_left_iff] at hall
  exact hall.imp fun c row hrow => nodeRow_ok hrow

end Columns

/-! ## Identities -/

/-- identities that are all there and pairwise different -/
def AllDistinct (ids : List (Option String)) : Prop := ∃ texts : List String, ids = texts.map some ∧ texts.Nodup

theorem allDistinct_map_some (texts : List String) : AllDistinct (texts.map some) ↔ texts.Nodup := by
  constructor
  · rintro ⟨texts', heq, hnodup⟩
    rwa [map_injective_iff.2 (Option.some_injective String) heq]
  · intro h
    exact ⟨texts, rfl, h⟩

/-- a text with a number at its end -/
theorem append_colon_inj {p q : String} {m n : ℕ} (h : p ++ ":" ++ toString m = q ++ ":" ++ toString n) :
    p = q ∧ m = n := by
  have hdigits : ∀ k : ℕ, ∀ c ∈ (toString k).toList.reverse, decide (c ≠ ':') = true := by
    intro k c hc
    refine decide_eq_true ?_
    rintro rfl
    exact absurd (repr_digits k _ (mem_reverse.1 hc)) (by decide)
  -- read from its end, the text is the digits up to the colon
  have hend : ∀ (p : String) (k : ℕ), (p ++ ":" ++ toString k).toList.reverse.takeWhile (· ≠ ':') =
      (toString k).toList.reverse := by
    intro p k
    rw [String.toList_append, String.toList_append, reverse_append, reverse_append,
      takeWhile_append_of_pos (hdigits k)]
    exact append_nil _
  have hreverse := (hend p m).symm.trans ((congrArg (fun t => t.toList.reverse.takeWhile (· ≠ ':')) h).trans (hend q n))
  have htext : toString m = toString n := String.toList_inj.1 (reverse_injective hreverse)
  rw [htext] at h
  have hprefix : p ++ ":" = q ++ ":" := (String.append_left_inj _).1 h
  exact ⟨(String.append_left_inj _).1 hprefix, toString_nat_injective htext⟩

section Identities

variable [PyText]

/-- the row identities of some children are pairwise different: as their own ids; without ids as places in the lists of
owners, where the owners must differ; and else as owners of one child each -/
def Identified (last : String) (owners : List Owner) : Prop :=
  let children := owners.flatMap (childrenOf last)
  if (children.any fun c => (ownField "id" c.value).isSome) = true then
    AllDistinct (children.map fun c => textOf ((ownField "id" c.value).getD .null))
  else if (children.any fun c => c.index.isSome) = true then
    ((owners.filter fun o => !(childrenOf last o).isEmpty).map fun o => o.1.text).Nodup
  else if (children.any fun c => (ownField "_child_index" c.value).isSome) = true then
    AllDistinct (children.map fun c => childIdentity c.parent ((ownField "_child_index" c.value).getD .null))
  else AllDistinct (children.map fun c => textOf c.parent)

/-- rows that their key keeps apart: their identities are pairwise different, and no merge loses one of them -/
structure KeptApart (primaryKey : Option String) (rows : List Row) : Prop where
  identities : AllDistinct (rows.map fun row => rowIdentity row (primaryKey.getD ""))
  kept : ∀ existing, rows.Subperm (mergeRows existing rows primaryKey false)

/-- a merge keeps the new rows whose identities are pairwise different -/
theorem subperm_mergeRows {rows : List Row} {primaryKey : String} (hkey : primaryKey ≠ "")
    (h : AllDistinct (rows.map fun row => rowIdentity row primaryKey)) (existing : List Row) :
    rows.Subperm (mergeRows existing rows (some primaryKey) false) := by
  obtain ⟨texts, htexts, hnodup⟩ := h
  have hids : (rows.map fun row => rowIdentity row primaryKey).Nodup := by
    rw [htexts]
    exact hnodup.map (Option.some_injective String)
  have hsome : ∀ row ∈ rows, (rowIdentity row primaryKey).isSome = true := by
    intro row hrow
    have hmem : rowIdentity row primaryKey ∈ texts.map some := by
      rw [← htexts]
      exact mem_map_of_mem hrow
    obtain ⟨t, _, ht⟩ := mem_map.1 hmem
    rw [← ht]
    rfl
  refine subperm_of_subset hids.of_map ?_
  intro row hrow
  rw [mergeRows_key _ _ _ hkey]
  refine mem_append_left _ ((mem_values_upsert _ _ _).2 ?_)
  rw [filter_append, filter_eq_self.2 hsome, reverse_append, find?_append]
  -- the row is the only new one of its key
  have hfind : (rows.reverse.find? fun row' => mergeKey primaryKey row' = mergeKey primaryKey row) = some row := by
    cases hf : rows.reverse.find? fun row' => mergeKey primaryKey row' = mergeKey primaryKey row with
    | none =>
      have hnone := find?_eq_none.1 hf row (mem_reverse.2 hrow)
      exact absurd (decide_eq_true rfl) hnone
    | some row' =>
      have hmem : row' ∈ rows := mem_reverse.1 (mem_of_find?_eq_some hf)
      have hsame : mergeKey primaryKey row' = mergeKey primaryKey row := by simpa using find?_some hf
      obtain ⟨k, hk⟩ := Option.isSome_iff_exists.1 (hsome row hrow)
      obtain ⟨k', hk'⟩ := Option.isSome_iff_exists.1 (hsome row' hmem)
      rw [mergeKey, mergeKey, hk, hk', Option.getD_some, Option.getD_some] at hsame
      rw [inj_on_of_nodup_map hids hmem hrow (by rw [hk, hk', hsame])]
  rw [hfind]
  rfl

end Identities

/-! ## Places in lists -/

theorem present_ne_null {fallback : Json} (h : fallback ≠ .null) (v : Json) : present fallback v ≠ .null := by
  cases v with
  | null => exact h
  | str s =>
    change (if s = "" then fallback else .str s) ≠ .null
    split_ifs
    · exact h
    · exact fun hs => (by cases hs)
  | _ => exact fun hv => (by cases hv)

theorem identityOf_ne_null {fallback : Json} (h : fallback ≠ .null) (v : Json) : identityOf fallback v ≠ .null := by
  cases v with
  | obj entries => exact present_ne_null h _
  | _ => exact h

variable {o : Owner}

theorem childrenOf_parent {c : Child} (hc : c ∈ childrenOf segment o) : c.parent = o.1 := by
  unfold childrenOf at hc
  split at hc
  · split at hc
    · cases hc
    · obtain ⟨e, _, rfl⟩ := mem_map.1 hc
      rfl
    · obtain rfl := mem_singleton.1 hc
      rfl
  · cases hc

theorem roots_ne_null (ho : o ∈ roots primaryKey records) : o.1 ≠ .null := by
  obtain ⟨e, _, he⟩ := mem_filterMap.1 ho
  split at he
  · cases he
    exact present_ne_null (fun h => (by cases h)) _
  · cases he

/-- what is below a value with an identity has one -/
theorem below_ne_null {o o' : Owner} (ho : o.1 ≠ .null) (ho' : o' ∈ below segs o) : o'.1 ≠ .null := by
  induction segs generalizing o with
  | nil =>
    obtain rfl := mem_singleton.1 ho'
    exact ho
  | cons segment rest ih =>
    obtain ⟨c, hc, ho'⟩ := mem_flatMap.1 ho'
    refine ih ?_ ho'
    refine identityOf_ne_null ?_ _
    rw [childrenOf_parent hc]
    exact ho

section Places

variable [PyText]

/-- the identity of a child in a list: its owner's, and its place -/
def placeText (c : Child) : Option String := childIdentity c.parent ((c.index.map fun i => Json.int i).getD .null)

theorem childIdentity_int {p : Json} (hp : p ≠ .null) (i : ℕ) :
    childIdentity p (.int i) = some (p.text ++ ":" ++ toString i) := by
  cases p with
  | null => exact absurd rfl hp
  | _ => rfl

/-- the children of an owner that has a list are numbered -/
theorem placeText_childrenOf (ho : o.1 ≠ .null) (hindex : ∀ c ∈ childrenOf segment o, c.index.isSome = true) :
    (childrenOf segment o).map placeText =
      ((List.range (childrenOf segment o).length).map fun i => o.1.text ++ ":" ++ toString i).map some := by
  have hlist : ∃ items : List Json, childrenOf segment o = items.zipIdx.map fun e => ⟨o.1, some e.2, e.1⟩ := by
    unfold childrenOf at hindex ⊢
    cases hvalue : o.2 with
    | obj entries =>
      simp only [hvalue] at hindex ⊢
      split at hindex
      · exact ⟨[], rfl⟩
      · rename_i items _
        exact ⟨items, rfl⟩
      · have hnone := hindex _ (mem_singleton.2 rfl)
        cases hnone
    | _ => exact ⟨[], rfl⟩
  obtain ⟨items, hitems⟩ := hlist
  rw [hitems, length_map, length_zipIdx, List.map_map, List.map_map, range_eq_range',
    ← zipIdx_map_snd 0 items, List.map_map]
  exact map_congr_left fun e _ => childIdentity_int ho e.2

/-- **Children in lists** have pairwise different places exactly when no two owners of any have one identity text. -/
theorem allDistinct_places {owners : List Owner} (howners : ∀ o ∈ owners, o.1 ≠ .null)
    (hindex : ∀ c ∈ owners.flatMap (childrenOf segment), c.index.isSome = true) :
    AllDistinct ((owners.flatMap (childrenOf segment)).map placeText) ↔
      ((owners.filter fun o => !(childrenOf segment o).isEmpty).map fun o => o.1.text).Nodup := by
  have hplaces : (owners.flatMap (childrenOf segment)).map placeText =
      (owners.flatMap fun o =>
        (List.range (childrenOf segment o).length).map fun i => o.1.text ++ ":" ++ toString i).map some := by
    rw [map_flatMap, map_flatMap]
    refine flatMap_congr fun o ho => ?_
    exact placeText_childrenOf (howners o ho) fun c hc => hindex c (mem_flatMap.2 ⟨o, ho, hc⟩)
  have hown : ∀ o : Owner, ((List.range (childrenOf segment o).length).map fun i =>
      o.1.text ++ ":" ++ toString i).Nodup :=
    fun o => nodup_range.map fun i j h => (append_colon_inj h).2
  rw [hplaces, allDistinct_map_some, nodup_flatMap, List.Nodup, pairwise_map, pairwise_filter]
  constructor
  · rintro ⟨_, hdisjoint⟩
    refine hdisjoint.imp fun {o o'} h ho ho' hsame => ?_
    -- the first children of two owners with one text would have one place
    have hfirst : ∀ o : Owner, (!(childrenOf segment o).isEmpty) = true → o.1.text ++ ":" ++ toString 0 ∈
        (List.range (childrenOf segment o).length).map fun i => o.1.text ++ ":" ++ toString i := by
      intro o ho
      refine mem_map.2 ⟨0, ?_, rfl⟩
      rw [mem_range, length_pos_iff]
      intro hnil
      rw [hnil] at ho
      cases ho
    have hmem : o.1.text ++ ":" ++ toString 0 ∈
        (List.range (childrenOf segment o').length).map fun i => o'.1.text ++ ":" ++ toString i := by
      rw [hsame]
      exact hfirst o' ho'
    exact h (hfirst o ho) hmem
  · intro h
    refine ⟨fun o _ => hown o, h.imp fun {o o'} h => ?_⟩
    intro t ht ht'
    obtain ⟨i, hi, rfl⟩ := mem_map.1 ht
    obtain ⟨j, hj, heq⟩ := mem_map.1 ht'
    have hnonempty : ∀ (o : Owner) (i : ℕ), i ∈ List.range (childrenOf segment o).length →
        (!(childrenOf segment o).isEmpty) = true := by
      intro o i hi
      cases hchildren : childrenOf segment o with
      | nil =>
        rw [hchildren] at hi
        exact absurd (mem_range.1 hi) (Nat.not_lt_zero i)
      | cons c l => rfl
    exact h (hnonempty o i hi) (hnonempty o' j hj) (append_colon_inj heq).1.symm

end Places

/-! ## The key of a sync -/

section Keys

variable [PyText]

variable {rows : List Row}

theorem hasColumn_eq {column : String} {f : Child → Bool} {children : List Child}
    (h : List.Forall₂ RowOf children rows) (hf : ∀ c row, RowOf c row → row.has column = f c) :
    hasColumn rows column = children.any f := by
  have hmap := map_eq_of_forall₂ hf h
  have hany : ∀ {α : Type} (l : List α) (f : α → Bool), (l.map f).any id = l.any f := fun l f => any_map
  rw [hasColumn, ← hany, hmap, hany]

/-- the key of the rows of some children, with the identities of the rows under it -/
theorem childPrimaryKey_cases {children : List Child} (h : List.Forall₂ RowOf children rows) (hne : children ≠ []) :
    (childPrimaryKey rows =
      if (children.any fun c => (ownField "id" c.value).isSome) = true then some "id"
      else if (children.any fun c => c.index.isSome || (ownField "_child_index" c.value).isSome) = true then
        some "_child_identity"
      else some "_parent_id") ∧
    rows.map (fun row => rowIdentity row "id") =
      children.map (fun c => textOf ((ownField "id" c.value).getD .null)) ∧
    rows.map (fun row => rowIdentity row "_child_identity") =
      children.map (fun c => childIdentity c.parent
        (((c.index.map fun i => Json.int i).or (ownField "_child_index" c.value)).getD .null)) ∧
    rows.map (fun row => rowIdentity row "_parent_id") = children.map (fun c => textOf c.parent) := by
  have hid : hasColumn rows "id" = children.any fun c => (ownField "id" c.value).isSome :=
    hasColumn_eq h fun c row hrow => by rw [Dict.has, hrow.id]
  have hindex : hasColumn rows "_child_index" =
      children.any fun c => c.index.isSome || (ownField "_child_index" c.value).isSome :=
    hasColumn_eq h fun c row hrow => by
      rw [Dict.has, hrow.index]
      cases c.index with
      | none => rfl
      | some i => rfl
  have hparent : hasColumn rows "_parent_id" = true := by
    rw [hasColumn_eq (f := fun _ => true) h fun c row hrow => by rw [Dict.has, hrow.parent]; rfl, any_eq_true]
    obtain ⟨c, rest, rfl⟩ := exists_cons_of_ne_nil hne
    exact ⟨c, mem_cons_self, rfl⟩
  refine ⟨?_, ?_, ?_, ?_⟩
  · rw [childPrimaryKey, hid, hindex, hparent, Bool.true_and, if_pos rfl]
  · refine map_eq_of_forall₂ (fun c row hrow => ?_) h
    rw [rowIdentity, if_neg (by decide), if_neg (by decide), cellOf, hrow.id]
  · refine map_eq_of_forall₂ (fun c row hrow => ?_) h
    rw [rowIdentity, if_neg (by decide), if_pos rfl, cellOf, cellOf, hrow.parent, hrow.index]
    rfl
  · refine map_eq_of_forall₂ (fun c row hrow => ?_) h
    rw [rowIdentity, if_pos rfl, cellOf, hrow.parent]
    rfl

/-- the identities of the rows of some children are pairwise different exactly when the children are identified -/
theorem allDistinct_rows {owners : List Owner} (howners : ∀ o ∈ owners, o.1 ≠ .null)
    (h : List.Forall₂ RowOf (owners.flatMap (childrenOf last)) rows)
    (hmany : ∃ many : Prop, ∀ c ∈ owners.flatMap (childrenOf last), c.index.isSome = true ↔ many)
    (hne : owners.flatMap (childrenOf last) ≠ []) :
    AllDistinct (rows.map fun row => rowIdentity row ((childPrimaryKey rows).getD "")) ↔ Identified last owners := by
  obtain ⟨hkey, hid, hchild, hparent⟩ := childPrimaryKey_cases h hne
  obtain ⟨many, hmany⟩ := hmany
  rw [hkey, Identified]
  set children := owners.flatMap (childrenOf last)
  by_cases h₁ : (children.any fun c => (ownField "id" c.value).isSome) = true
  · rw [if_pos h₁, if_pos h₁, Option.getD_some, hid]
  rw [if_neg h₁, if_neg h₁]
  by_cases h₂ : (children.any fun c => c.index.isSome) = true
  · -- one child in a list: all of them are
    obtain ⟨c, hc, hci⟩ := any_eq_true.1 h₂
    have hall : ∀ c ∈ children, c.index.isSome = true :=
      fun c' hc' => (hmany c' hc').2 ((hmany c hc).1 hci)
    have hany : (children.any fun c =>
        c.index.isSome || (ownField "_child_index" c.value).isSome) = true :=
      any_eq_true.2 ⟨c, hc, by rw [hci, Bool.true_or]⟩
    have hplaces : children.map (fun c => childIdentity c.parent
        (((c.index.map fun i => Json.int i).or (ownField "_child_index" c.value)).getD .null)) =
          children.map placeText := by
      refine map_congr_left fun c hc => ?_
      obtain ⟨i, hi⟩ := Option.isSome_iff_exists.1 (hall c hc)
      rw [placeText, hi]
      rfl
    rw [if_pos hany, if_pos h₂, Option.getD_some, hchild, hplaces]
    exact allDistinct_places howners hall
  · have hnone : ∀ c ∈ children, c.index = none := by
      intro c hc
      cases hi : c.index with
      | none => rfl
      | some i => exact absurd (any_eq_true.2 ⟨c, hc, by rw [hi]; rfl⟩) h₂
    have hany : (children.any fun c =>
        c.index.isSome || (ownField "_child_index" c.value).isSome) =
          children.any fun c => (ownField "_child_index" c.value).isSome := by
      rw [Bool.eq_iff_iff, any_eq_true, any_eq_true]
      refine exists_congr fun c => and_congr_right fun hc => ?_
      rw [hnone c hc]
      rfl
    rw [if_neg h₂, hany]
    by_cases h₃ : (children.any fun c => (ownField "_child_index" c.value).isSome) = true
    · have howned : children.map (fun c => childIdentity c.parent
          (((c.index.map fun i => Json.int i).or (ownField "_child_index" c.value)).getD .null)) =
            children.map fun c =>
              childIdentity c.parent ((ownField "_child_index" c.value).getD .null) :=
        map_congr_left fun c hc => by rw [hnone c hc]; rfl
      rw [if_pos h₃, if_pos h₃, Option.getD_some, hchild, howned]
    · rw [if_neg h₃, if_neg h₃, Option.getD_some, hparent]

/-- a nested path is not the name of its root -/
theorem resourcePath_ne_root {path : String} {flatten : List String}
    {m : MaterializedRows} (hm : materializeApiResourceRows path records primaryKey flatten = .ok m)
    (hnested : relativeSegments m.resourcePath ≠ []) : m.resourcePath ≠ m.rootResource := by
  obtain ⟨normalized, hnormalized, hm⟩ := of_bind_ok hm
  obtain ⟨flattenPaths, hflatten, hm⟩ := of_bind_ok hm
  obtain ⟨root, hroot, hm⟩ := of_bind_ok hm
  obtain ⟨nodes, hnodes, hm⟩ := of_bind_ok hm
  obtain ⟨walked, hwalk, hm⟩ := of_bind_ok hm
  obtain ⟨rows, hrows, hm⟩ := of_bind_ok hm
  cases hm
  intro heq
  obtain rfl : normalized = root := heq
  -- a root has no dot
  have hdot : '.' ∉ normalized.toList := by
    unfold apiResourceRoot at hroot
    cases hn : normalizeApiResourcePath normalized with
    | error e =>
      rw [hn] at hroot
      cases hroot
    | ok n =>
      rw [hn] at hroot
      have hroot : String.ofList (n.toList.takeWhile (· ≠ '.')) = normalized := Except.ok.inj hroot
      rw [← hroot, String.toList_ofList]
      intro hmem
      have hne := all_eq_true.1 all_takeWhile '.' hmem
      exact of_decide_eq_true hne rfl
  refine hnested ?_
  change ((normalized.toList.splitOn '.').map String.ofList).tail = []
  have hone : normalized.toList.splitOn '.' = [normalized.toList] := by
    have hself : (['.'].intercalate [normalized.toList]).splitOn '.' = [normalized.toList] := by
      refine splitOn_intercalate '.' ?_ (cons_ne_nil _ _)
      intro l hl
      rw [mem_singleton.1 hl]
      exact hdot
    simpa using hself
  rw [hone]
  rfl

/-- **Identities of nested rows.** The rows of a nested path are kept apart by the key that the sync chooses for them
exactly when the children that the path reaches are identified. -/
theorem keptApart_iff (path : String) (records : List Json) (r : ApiResource) (flatten : List String)
    (m : MaterializedRows) (hm : materializeApiResourceRows path records r.primaryKey flatten = .ok m)
    (hroot : m.rootResource = r.name) (segs : List String) (last : String)
    (hpath : relativeSegments m.resourcePath = segs ++ [last]) :
    KeptApart (materializationPrimaryKey m.resourcePath r m.rows) m.rows ↔
      Identified last ((roots r.primaryKey records).flatMap (below segs)) := by
  obtain ⟨hrows, hcard⟩ := materializeApiResourceRows_children hm hpath
  have howners : ∀ o ∈ (roots r.primaryKey records).flatMap (below segs), o.1 ≠ .null := by
    intro o ho
    obtain ⟨root, hroot, ho⟩ := mem_flatMap.1 ho
    exact below_ne_null (roots_ne_null hroot) ho
  have hnested : relativeSegments m.resourcePath ≠ [] := by
    rw [hpath]
    exact append_ne_nil_of_right_ne_nil _ (cons_ne_nil _ _)
  have hkey : materializationPrimaryKey m.resourcePath r m.rows = childPrimaryKey m.rows := by
    rw [materializationPrimaryKey, if_neg]
    rw [← hroot]
    exact resourcePath_ne_root hm hnested
  rw [hkey]
  by_cases hne : ((roots r.primaryKey records).flatMap (below segs)).flatMap (childrenOf last) = []
  · -- there are no rows
    rw [hne, List.forall₂_nil_left_iff] at hrows
    rw [hrows, Identified, hne]
    refine iff_of_true ⟨⟨[], rfl, nodup_nil⟩, fun existing => nil_subperm⟩ ?_
    exact ⟨[], rfl, nodup_nil⟩
  · have hdistinct := allDistinct_rows howners hrows ⟨_, hcard⟩ hne
    constructor
    · intro h
      exact hdistinct.1 h.identities
    · intro h
      refine ⟨hdistinct.2 h, fun existing => ?_⟩
      obtain ⟨hchoice, _⟩ := childPrimaryKey_cases hrows hne
      have hsome : ∃ key, childPrimaryKey m.rows = some key ∧ key ≠ "" := by
        rw [hchoice]
        split_ifs
        · exact ⟨_, rfl, by decide⟩
        · exact ⟨_, rfl, by decide⟩
        · exact ⟨_, rfl, by decide⟩
      obtain ⟨key, hkey, hblank⟩ := hsome
      have hall := hdistinct.2 h
      rw [hkey] at hall ⊢
      exact subperm_mergeRows hblank hall existing

end Keys

/-! ## Items of orders -/

section OrderItems

open scoped Ascii

def ordersResource : ApiResource := ⟨"orders", some "id", true⟩

def orderWith (id : String) (items : List Json) : Json := .obj [("id", .str id), ("items", .arr items)]

def lineItem (line : ℤ) (sku : String) : Json := .obj [("id", .int line), ("sku", .str sku)]

def skuItem (sku : String) : Json := .obj [("sku", .str sku)]

def skuOrders : List Json := [orderWith "a" [skuItem "tea", skuItem "rice"], orderWith "b" [skuItem "tea"]]

def lineOrders : List Json := [orderWith "a" [lineItem 1 "tea"], orderWith "b" [lineItem 1 "rice"]]

/-- items without ids have the places in their orders -/
theorem skuItems_keptApart : ∃ m, materializeApiResourceRows "orders.items" skuOrders (some "id") [] = .ok m ∧
    KeptApart (materializationPrimaryKey m.resourcePath ordersResource m.rows) m.rows := by
  refine ⟨_, rfl, ?_⟩
  refine (keptApart_iff "orders.items" skuOrders ordersResource [] _ rfl rfl [] "items" rfl).2 ?_
  have hdistinct : ["a", "b"].Nodup := by decide
  exact hdistinct

/-- items numbered within their orders: the second order's item replaces the first one's -/
theorem lineItems_merged : ∃ m, materializeApiResourceRows "orders.items" lineOrders (some "id") [] = .ok m ∧
    m.rows.map (fun row => cellOf row "sku") = [.str "tea", .str "rice"] ∧
      (mergeRows [] m.rows (materializationPrimaryKey m.resourcePath ordersResource m.rows) false).map
        (fun row => cellOf row "sku") = [.str "rice"] ∧
        ¬KeptApart (materializationPrimaryKey m.resourcePath ordersResource m.rows) m.rows := by
  refine ⟨_, rfl, rfl, rfl, ?_⟩
  intro h
  have htexts : AllDistinct (["1", "1"].map some) := h.identities
  rw [allDistinct_map_some] at htexts
  exact absurd htexts (by decide)

end OrderItems

end Langbridge.Runtime
