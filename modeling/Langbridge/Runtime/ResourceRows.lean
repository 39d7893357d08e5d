/-
The rows of an API resource (`connectors/base/resource_paths.py`). A row is to have one column for each scalar of a
record, those of the objects included that a flatten path leads to. A path is to be missing only if no record has a
value at it, and an empty list is one.
-/
import Langbridge.Runtime.ResourceWalks

namespace Langbridge.Runtime

open Core List PyText

/-! ## Scalars -/

section Scalars

variable [PyText]

mutual

/-- the scalars of a mapping at any depth, with the names that lead to them; an entry with a blank name is no field -/
def scalars (names : List String) : List (String × Json) → List (List String × Json)
  | [] => []
  | (rawKey, value) :: entries =>
    (if strip rawKey = "" then [] else valueScalars (names ++ [strip rawKey]) value) ++
      scalars names entries

def valueScalars (names : List String) : Json → List (List String × Json)
  | .obj entries => scalars names entries
  | .arr _ => []
  | value => [(names, value)]

end

/-- the column of a scalar -/
def columnOf (path : List String) : String := "__".intercalate path

/-- a scalar in its column -/
def column (e : List String × Json) : String × Json := (columnOf e.1, e.2)

/-- a scalar at the top, or one inside an object that a flatten path leads to -/
def isAsked (flattenPaths : List String) (path : List String) : Bool :=
  path.length = 1 || path.dropLast.inits.any fun names => names ≠ [] && ".".intercalate names ∈ flattenPaths

/-- a scalar at the top, or one below a field that is a flatten path itself -/
def isTaken (flattenPaths : List String) (path : List String) : Bool :=
  path.length = 1 || path.head?.any fun name => name ∈ flattenPaths

/-- the columns of a value: those of some of its scalars, or the value itself -/
def columns (which : List String → Bool) : Json → List (String × Json)
  | .obj entries => ((scalars [] entries).filter fun e => which e.1).map column
  | value => [("value", value)]

/-- columns that are set one after the other -/
def setColumns (row : Row) (l : List (String × Json)) : Row := l.foldl (fun row e => row.set e.1 e.2) row

omit [PyText] in
theorem setColumns_append (row : Row) (l l' : List (String × Json)) :
    setColumns row (l ++ l') = setColumns (setColumns row l) l' := foldl_append

/-! ## Flattened mappings -/

omit [PyText] in
theorem columnOf_concat {names : List String} (h : names ≠ []) (name : String) :
    columnOf (names ++ [name]) = columnOf names ++ "__" ++ name := by
  rw [columnOf, String.intercalate_append_of_ne_nil h (by simp), String.intercalate_singleton]
  rfl

mutual

theorem flattenMapping_ok {names : List String} (hne : names ≠ []) :
    ∀ (entries : List (String × Json)) {row row' : Row}, flattenMapping (columnOf names) row entries = .ok row' →
      row' = setColumns row ((scalars names entries).map column)
  | [], row, row', h => by
    exact (Except.ok.inj h).symm
  | (rawKey, value) :: entries, row, row', h => by
    rw [flattenMapping] at h
    rw [scalars]
    split_ifs at h with hblank
    · rw [if_pos hblank, nil_append]
      exact flattenMapping_ok hne entries h
    · rw [if_neg hblank, map_append, setColumns_append]
      cases hvalue : flattenValue (columnOf names) (columnOf names ++ "__" ++ strip rawKey) row value with
      | error e =>
        rw [hvalue] at h
        cases h
      | ok next =>
        rw [hvalue] at h
        rw [← columnOf_concat hne] at hvalue
        rw [← flattenValue_ok (by simp) value hvalue]
        exact flattenMapping_ok hne entries h

theorem flattenValue_ok {fieldPrefix : String} {names : List String} (hne : names ≠ []) :
    ∀ (value : Json) {row row' : Row}, flattenValue fieldPrefix (columnOf names) row value = .ok row' →
      row' = setColumns row ((valueScalars names value).map column)
  | .obj entries, row, row', h => by
    exact flattenMapping_ok hne entries h
  | .arr items, row, row', h => by
    cases h
  | .null, row, row', h => (Except.ok.inj h).symm
  | .bool _, row, row', h => (Except.ok.inj h).symm
  | .int _, row, row', h => (Except.ok.inj h).symm
  | .float _, row, row', h => (Except.ok.inj h).symm
  | .str _, row, row', h => (Except.ok.inj h).symm

end

mutual

/-- the scalars of a mapping lie below it -/
theorem scalars_below (names : List String) : ∀ (entries : List (String × Json)), ∀ e ∈ scalars names entries,
    ∃ name rest, e.1 = names ++ name :: rest
  | [], e, h => by
    exact absurd h not_mem_nil
  | (rawKey, value) :: entries, e, h => by
    rw [scalars, mem_append] at h
    rcases h with h | h
    · split_ifs at h
      · exact absurd h not_mem_nil
      · obtain ⟨rest, hrest⟩ := valueScalars_below (names ++ [strip rawKey]) value e h
        exact ⟨strip rawKey, rest, by rw [hrest, append_assoc]; rfl⟩
    · exact scalars_below names entries e h

theorem valueScalars_below (names : List String) : ∀ (value : Json), ∀ e ∈ valueScalars names value,
    ∃ rest, e.1 = names ++ rest
  | .obj entries, e, h => by
    obtain ⟨name, rest, hrest⟩ := scalars_below names entries e h
    exact ⟨name :: rest, hrest⟩
  | .arr _, e, h => by
    exact absurd h not_mem_nil
  | .null, e, h => ⟨[], by rw [mem_singleton.1 h, append_nil]⟩
  | .bool _, e, h => ⟨[], by rw [mem_singleton.1 h, append_nil]⟩
  | .int _, e, h => ⟨[], by rw [mem_singleton.1 h, append_nil]⟩
  | .float _, e, h => ⟨[], by rw [mem_singleton.1 h, append_nil]⟩
  | .str _, e, h => ⟨[], by rw [mem_singleton.1 h, append_nil]⟩

end

/-! ## Rows -/

variable {flattenPaths : List String}

theorem materializeEntry_ok {row row' : Row} {entry : String × Json}
    (h : materializeEntry flattenPaths row entry = .ok row') :
    row' = setColumns row (((scalars [] [entry]).filter fun e => isTaken flattenPaths e.1).map column) := by
  obtain ⟨rawKey, value⟩ := entry
  have hone : ∀ {value : Json}, valueScalars [strip rawKey] value = [([strip rawKey], value)] →
      ((valueScalars [strip rawKey] value).filter fun e => isTaken flattenPaths e.1).map column =
        [(strip rawKey, value)] := by
    intro value hvalue
    rw [hvalue]
    rfl
  rw [scalars, scalars, append_nil, nil_append]
  rw [materializeEntry] at h
  by_cases hblank : strip rawKey = ""
  · rw [if_pos hblank] at h ⊢
    exact (Except.ok.inj h).symm
  rw [if_neg hblank] at h ⊢
  cases value with
  | obj entries =>
    rw [valueScalars]
    have hbelow : ∀ e ∈ scalars [strip rawKey] entries,
        isTaken flattenPaths e.1 = decide (strip rawKey ∈ flattenPaths) := by
      intro e he
      obtain ⟨name, rest, hpath⟩ := scalars_below _ entries e he
      rw [isTaken, hpath]
      simp
    split_ifs at h with hflatten
    · rw [filter_eq_self.2 fun e he => (hbelow e he).trans (decide_eq_true hflatten)]
      exact flattenMapping_ok (cons_ne_nil (strip rawKey) []) entries h
    · rw [filter_eq_nil_iff.2 fun e he => by rw [hbelow e he]; simpa using hflatten]
      exact (Except.ok.inj h).symm
  | arr items =>
    split_ifs at h
    exact (Except.ok.inj h).symm
  | _ =>
    exact (Except.ok.inj h).symm

theorem foldlM_materializeEntry_ok {entries : List (String × Json)} {row row' : Row}
    (h : entries.foldlM (materializeEntry flattenPaths) row = .ok row') :
    row' = setColumns row (((scalars [] entries).filter fun e => isTaken flattenPaths e.1).map column) := by
  induction entries generalizing row with
  | nil =>
    exact (Except.ok.inj h).symm
  | cons entry entries ih =>
    obtain ⟨next, hnext, h⟩ := of_bind_ok h
    have hsplit : scalars [] (entry :: entries) = scalars [] [entry] ++ scalars [] entries := by
      rw [scalars, scalars, scalars, append_nil]
    rw [hsplit, filter_append, map_append, setColumns_append, ← materializeEntry_ok hnext]
    exact ih h

variable {row : Row}

theorem materializeValue_ok {value : Json} (h : materializeValue flattenPaths value = .ok row) :
    row = setColumns Dict.empty (columns (isTaken flattenPaths) value) := by
  cases value with
  | obj entries => exact foldlM_materializeEntry_ok h
  | _ => exact (Except.ok.inj h).symm

/-- the identities that a row below the root is given -/
def identities (nested : Bool) (node : TraversalNode) : List (String × Json) :=
  if nested then ("_parent_id", node.parentId) :: (node.childIndex.map fun i => ("_child_index", Json.int i)).toList
  else []

/-- **A row** has the columns of the scalars that are taken, and the identities. -/
theorem nodeRow_columns {nested : Bool} {node : TraversalNode} (h : nodeRow flattenPaths nested node = .ok row) :
    row = Dict.ofList (columns (isTaken flattenPaths) node.value ++ identities nested node) := by
  obtain ⟨values, hvalues, h⟩ := of_bind_ok h
  have hlist : Dict.ofList (columns (isTaken flattenPaths) node.value ++ identities nested node) =
      setColumns values (identities nested node) := by
    rw [materializeValue_ok hvalues, ← setColumns_append]
    rfl
  rw [hlist, identities]
  cases nested with
  | false => exact (Except.ok.inj h).symm
  | true =>
    rw [← Except.ok.inj h]
    cases node.childIndex <;> rfl

/-! ## Complete rows -/

/-- **A complete row** has one column for each scalar that is asked for, and the identities. -/
def Complete (flattenPaths : List String) (nested : Bool) (node : TraversalNode) (row : Row) : Prop :=
  row.entries.Perm (columns (isAsked flattenPaths) node.value ++ identities nested node)

/-- the names of the identities of a row -/
def identityNames (nested listed : Bool) : List String :=
  if nested then "_parent_id" :: (if listed then ["_child_index"] else []) else []

omit [PyText] in
theorem identities_names (nested : Bool) (node : TraversalNode) :
    (identities nested node).map Prod.fst = identityNames nested node.childIndex.isSome := by
  rw [identities, identityNames]
  cases nested <;> cases node.childIndex <;> rfl

/-- a scalar is asked for only below a field that is a flatten path itself, and no two columns have one name -/
structure Apart (flattenPaths : List String) (nested : Bool) (place : Json × Bool) : Prop where
  shallow : ∀ entries, place.1 = .obj entries → ∀ e ∈ scalars [] entries,
    isAsked flattenPaths e.1 = true → isTaken flattenPaths e.1 = true
  names : ((columns (isAsked flattenPaths) place.1).map Prod.fst ++ identityNames nested place.2).Nodup

omit [PyText] in
theorem length_setEntry (name : String) (value : Json) (l : List (String × Json)) :
    (Dict.setEntry name value l).length ≤ l.length + 1 := by
  induction l with
  | nil => exact le_refl _
  | cons e l ih =>
    rw [Dict.setEntry]
    split_ifs
    · exact Nat.le_succ _
    · exact Nat.succ_le_succ ih

omit [PyText] in
theorem length_setColumns (row : Row) (l : List (String × Json)) :
    (setColumns row l).entries.length ≤ row.entries.length + l.length := by
  induction l generalizing row with
  | nil => exact le_refl _
  | cons e l ih =>
    have hset : (row.set e.1 e.2).entries.length ≤ row.entries.length + 1 := length_setEntry _ _ _
    have hrest := ih (row.set e.1 e.2)
    rw [length_cons]
    exact hrest.trans (by omega)

omit [PyText] in
theorem asked_of_taken {flattenPaths path : List String} (h : isTaken flattenPaths path = true) :
    isAsked flattenPaths path = true := by
  rw [isTaken, Bool.or_eq_true] at h
  rw [isAsked, Bool.or_eq_true]
  by_cases hone : path.length = 1
  · exact .inl (decide_eq_true hone)
  · right
    have hfirst := h.resolve_left fun hlength => hone (of_decide_eq_true hlength)
    rcases path with _ | ⟨name, _ | ⟨second, rest⟩⟩
    · cases hfirst
    · exact absurd rfl hone
    · refine any_eq_true.2 ⟨[name], (mem_inits _ _).2 ⟨(second :: rest).dropLast, rfl⟩, ?_⟩
      simpa using hfirst

/-- the columns that are taken are those that are asked for exactly if a scalar is asked for only where it is taken -/
theorem columns_taken (flattenPaths : List String) (value : Json) :
    (columns (isTaken flattenPaths) value).length ≤ (columns (isAsked flattenPaths) value).length ∧
      ((columns (isAsked flattenPaths) value).length ≤ (columns (isTaken flattenPaths) value).length →
        ∀ entries, value = .obj entries → ∀ e ∈ scalars [] entries,
          isAsked flattenPaths e.1 = true → isTaken flattenPaths e.1 = true) := by
  cases value with
  | obj entries =>
    have hsub : ((scalars [] entries).filter fun e => isTaken flattenPaths e.1).Sublist
        ((scalars [] entries).filter fun e => isAsked flattenPaths e.1) :=
      monotone_filter_right _ fun e => asked_of_taken
    rw [columns, columns, length_map, length_map]
    refine ⟨hsub.length_le, fun hle entries' heq e he hasked => ?_⟩
    cases heq
    have hmem : e ∈ (scalars [] entries).filter fun e => isAsked flattenPaths e.1 := mem_filter.2 ⟨he, hasked⟩
    rw [← hsub.eq_of_length_le hle] at hmem
    exact (mem_filter.1 hmem).2
  | _ => exact ⟨le_refl _, fun _ entries heq => nomatch heq⟩

/-- **A row is complete** exactly if its columns are apart. -/
theorem complete_iff {nested : Bool} {node : TraversalNode} (h : nodeRow flattenPaths nested node = .ok row) :
    Complete flattenPaths nested node row ↔ Apart flattenPaths nested (node.value, node.childIndex.isSome) := by
  obtain rfl := nodeRow_columns h
  obtain ⟨hle, hshallow⟩ := columns_taken flattenPaths node.value
  constructor
  · intro hperm
    refine ⟨hshallow ?_, ?_⟩
    swap
    · rw [← identities_names, ← map_append]
      exact (hperm.map Prod.fst).nodup_iff.1 (Dict.ofList _).nodup
    have hlength := hperm.length_eq
    have hset := length_setColumns Dict.empty (columns (isTaken flattenPaths) node.value ++ identities nested node)
    rw [length_append] at hlength hset
    have hempty : (Dict.empty : Row).entries.length = 0 := rfl
    have hsame : (setColumns Dict.empty (columns (isTaken flattenPaths) node.value ++ identities nested node)) =
      Dict.ofList (columns (isTaken flattenPaths) node.value ++ identities nested node) := rfl
    rw [hsame] at hset
    omega
  · rintro ⟨hshallow, hnames⟩
    rw [← identities_names, ← map_append] at hnames
    have hcolumns : columns (isTaken flattenPaths) node.value = columns (isAsked flattenPaths) node.value := by
      cases hvalue : node.value with
      | obj entries =>
        rw [columns, columns]
        congr 1
        refine filter_congr fun e he => ?_
        exact Bool.eq_iff_iff.2 ⟨asked_of_taken, hshallow entries hvalue e he⟩
      | _ => rfl
    rw [Complete, hcolumns]
    exact Perm.of_eq (congrArg Dict.entries (Dict.ofList_entries ⟨_, hnames⟩))

end Scalars

/-! ## Rows that are built -/

section Built

variable [PyText]

mutual

/-- a list at any depth of a mapping -/
def holdsList : List (String × Json) → Bool
  | [] => false
  | (rawKey, value) :: entries => (strip rawKey ≠ "" && valueHoldsList value) || holdsList entries

def valueHoldsList : Json → Bool
  | .obj entries => holdsList entries
  | .arr _ => true
  | _ => false

end

def rowBuilt (flattenPaths : List String) : Json → Bool
  | .obj entries => entries.all fun e =>
      decide (strip e.1 = "") || decide (strip e.1 ∉ flattenPaths) || !valueHoldsList e.2
  | _ => true

mutual

theorem flattenMapping_ok_iff (fieldPrefix : String) : ∀ (entries : List (String × Json)) (row : Row),
    (∃ row', flattenMapping fieldPrefix row entries = .ok row') ↔ holdsList entries = false
  | [], row => iff_of_true ⟨row, by rw [flattenMapping]⟩ (by rw [holdsList])
  | (rawKey, value) :: entries, row => by
    rw [flattenMapping, holdsList]
    by_cases hblank : strip rawKey = ""
    · rw [if_pos hblank, flattenMapping_ok_iff fieldPrefix entries row]
      simp [hblank]
    · have hvalue := flattenValue_ok_iff fieldPrefix (fieldPrefix ++ "__" ++ strip rawKey) value row
      cases hflatten : flattenValue fieldPrefix (fieldPrefix ++ "__" ++ strip rawKey) row value with
      | error e =>
        rw [hflatten] at hvalue
        have hholds : valueHoldsList value = true := by
          by_contra hno
          obtain ⟨row', hrow⟩ := hvalue.2 (Bool.eq_false_iff.2 hno)
          cases hrow
        simp [hblank, hholds]
      | ok next =>
        rw [hflatten] at hvalue
        simp [hblank, hvalue.1 ⟨next, rfl⟩, flattenMapping_ok_iff fieldPrefix entries next]

theorem flattenValue_ok_iff (fieldPrefix columnName : String) : ∀ (value : Json) (row : Row),
    (∃ row', flattenValue fieldPrefix columnName row value = .ok row') ↔ valueHoldsList value = false
  | .obj entries, row => by
    exact flattenMapping_ok_iff columnName entries row
  | .arr items, row => iff_of_false (fun ⟨_, h⟩ => nomatch h) (by rw [valueHoldsList]; exact Bool.noConfusion)
  | .null, row => iff_of_true ⟨_, rfl⟩ rfl
  | .bool _, row => iff_of_true ⟨_, rfl⟩ rfl
  | .int _, row => iff_of_true ⟨_, rfl⟩ rfl
  | .float _, row => iff_of_true ⟨_, rfl⟩ rfl
  | .str _, row => iff_of_true ⟨_, rfl⟩ rfl

end

theorem materializeEntry_ok_iff (flattenPaths : List String) (row : Row) (entry : String × Json) :
    (∃ row', materializeEntry flattenPaths row entry = .ok row') ↔
      (decide (strip entry.1 = "") || decide (strip entry.1 ∉ flattenPaths) ||
        !valueHoldsList entry.2) = true := by
  rw [materializeEntry]
  by_cases hblank : strip entry.1 = ""
  · rw [if_pos hblank]
    exact iff_of_true ⟨row, rfl⟩ (by simp [hblank])
  rw [if_neg hblank]
  cases hvalue : entry.2 with
  | obj entries =>
    split_ifs with hflatten
    · rw [flattenMapping_ok_iff]
      simp [hblank, hflatten, valueHoldsList]
    · exact iff_of_true ⟨row, rfl⟩ (by simp [hflatten])
  | arr items =>
    split_ifs with hflatten
    · simp [hblank, hflatten, valueHoldsList]
    · exact iff_of_true ⟨row, rfl⟩ (by simp [hflatten])
  | _ => exact iff_of_true ⟨_, rfl⟩ (by simp [valueHoldsList])

theorem materializeValue_ok_iff (flattenPaths : List String) (value : Json) :
    (∃ row, materializeValue flattenPaths value = .ok row) ↔ rowBuilt flattenPaths value = true := by
  cases value with
  | obj entries =>
    have hfold : ∀ row : Row, (∃ row', entries.foldlM (materializeEntry flattenPaths) row = .ok row') ↔
        rowBuilt flattenPaths (.obj entries) = true := by
      rw [rowBuilt]
      induction entries with
      | nil => exact fun row => iff_of_true ⟨row, rfl⟩ rfl
      | cons entry entries ih =>
        intro row
        rw [foldlM_cons, all_cons, Bool.and_eq_true, ← materializeEntry_ok_iff flattenPaths row entry]
        constructor
        · rintro ⟨row', h⟩
          obtain ⟨next, hnext, h⟩ := of_bind_ok h
          exact ⟨⟨next, hnext⟩, (ih next).1 ⟨row', h⟩⟩
        · rintro ⟨⟨next, hnext⟩, h⟩
          obtain ⟨row', hrow⟩ := (ih next).2 h
          refine ⟨row', ?_⟩
          rw [hnext]
          exact hrow
    exact hfold Dict.empty
  | _ => exact iff_of_true ⟨_, rfl⟩ rfl

/-- **A row is built** unless a list is to be flattened. -/
theorem nodeRow_ok_iff (flattenPaths : List String) (nested : Bool) (node : TraversalNode) :
    (∃ row, nodeRow flattenPaths nested node = .ok row) ↔ rowBuilt flattenPaths node.value = true := by
  rw [← materializeValue_ok_iff, nodeRow]
  constructor
  · rintro ⟨row, h⟩
    obtain ⟨values, hvalues, -⟩ := of_bind_ok h
    exact ⟨values, hvalues⟩
  · rintro ⟨values, hvalues⟩
    rw [hvalues]
    cases nested with
    | false => exact ⟨_, rfl⟩
    | true => exact ⟨_, rfl⟩

mutual

theorem flattenMapping_error (fieldPrefix : String) : ∀ (entries : List (String × Json)) {row : Row} {e : PathError},
    flattenMapping fieldPrefix row entries = .error e → ∃ p, e = .manyChild p
  | [], row, e, h => by
    cases h
  | (rawKey, value) :: entries, row, e, h => by
    rw [flattenMapping] at h
    split_ifs at h
    · exact flattenMapping_error fieldPrefix entries h
    · cases hvalue : flattenValue fieldPrefix (fieldPrefix ++ "__" ++ strip rawKey) row value with
      | error e' =>
        rw [hvalue] at h
        obtain rfl := Except.error.inj h
        exact flattenValue_error fieldPrefix _ value hvalue
      | ok next =>
        rw [hvalue] at h
        exact flattenMapping_error fieldPrefix entries h

theorem flattenValue_error (fieldPrefix columnName : String) : ∀ (value : Json) {row : Row} {e : PathError},
    flattenValue fieldPrefix columnName row value = .error e → ∃ p, e = .manyChild p
  | .obj entries, row, e, h => by
    exact flattenMapping_error columnName entries h
  | .arr items, row, e, h => by
    exact ⟨_, (Except.error.inj h).symm⟩
  | .null, row, e, h => nomatch h
  | .bool _, row, e, h => nomatch h
  | .int _, row, e, h => nomatch h
  | .float _, row, e, h => nomatch h
  | .str _, row, e, h => nomatch h

end

theorem materializeEntry_error {flattenPaths : List String} {row : Row} {entry : String × Json} {e : PathError}
    (h : materializeEntry flattenPaths row entry = .error e) : ∃ p, e = .manyChild p := by
  rw [materializeEntry] at h
  by_cases hblank : strip entry.1 = ""
  · rw [if_pos hblank] at h
    cases h
  rw [if_neg hblank] at h
  cases hvalue : entry.2 with
  | obj entries =>
    rw [hvalue] at h
    split_ifs at h
    exact flattenMapping_error _ entries h
  | arr items =>
    rw [hvalue] at h
    split_ifs at h
    exact ⟨_, (Except.error.inj h).symm⟩
  | _ =>
    rw [hvalue] at h
    cases h

theorem nodeRow_error {flattenPaths : List String} {nested : Bool} {node : TraversalNode} {e : PathError}
    (h : nodeRow flattenPaths nested node = .error e) : ∃ p, e = .manyChild p := by
  have hfold : ∀ (entries : List (String × Json)) (row : Row),
      entries.foldlM (materializeEntry flattenPaths) row = .error e → ∃ p, e = .manyChild p := by
    intro entries
    induction entries with
    | nil => exact fun row h => nomatch h
    | cons entry entries ih =>
      intro row h
      rw [foldlM_cons] at h
      cases hentry : materializeEntry flattenPaths row entry with
      | error e' =>
        rw [hentry] at h
        obtain rfl := Except.error.inj h
        exact materializeEntry_error hentry
      | ok next =>
        rw [hentry] at h
        exact ih next h
  rw [nodeRow] at h
  cases hvalue : materializeValue flattenPaths node.value with
  | error e' =>
    rw [hvalue] at h
    obtain rfl := Except.error.inj h
    cases hnode : node.value with
    | obj entries =>
      rw [hnode] at hvalue
      exact hfold entries Dict.empty hvalue
    | _ =>
      rw [hnode] at hvalue
      cases hvalue
  | ok values =>
    rw [hvalue] at h
    cases nested <;> cases h

end Built

/-! ## Computations that report no missing step -/

section Silent

variable {α β : Type}

def Silent (x : Except PathError α) : Prop := ∀ p, x ≠ .error (.missing p)

variable {x : Except PathError α} {f : α → Except PathError β}

/-- what is missing after a silent computation -/
theorem Silent.bind_iff (hx : Silent x) {p : String} :
    x >>= f = .error (.missing p) ↔ ∃ a, x = .ok a ∧ f a = .error (.missing p) := by
  cases x with
  | error e =>
    refine iff_of_false (fun h => ?_) fun ⟨_, h, _⟩ => nomatch h
    exact hx p (congrArg Except.error (Except.error.inj h))
  | ok a =>
    constructor
    · exact fun h => ⟨a, rfl, h⟩
    · rintro ⟨a', ha', h⟩
      rw [Except.ok.inj ha']
      exact h

/-- what is missing before silent computations -/
theorem Silent.tail_iff {p : String} (hf : ∀ a, Silent (f a)) :
    x >>= f = .error (.missing p) ↔ x = .error (.missing p) := by
  cases x with
  | error e =>
    have hsame : ∀ {γ δ : Type}, (.error e : Except PathError γ) = .error (.missing p) →
        (.error e : Except PathError δ) = .error (.missing p) := fun h => congrArg Except.error (Except.error.inj h)
    exact ⟨hsame, hsame⟩
  | ok a => exact iff_of_false (hf a p) fun h => nomatch h

theorem Silent.bind (hx : Silent x) (hf : ∀ a, Silent (f a)) :
    Silent (x >>= f) := fun p h => hx p ((Silent.tail_iff hf).1 h)

theorem Silent.map (hx : Silent x) (f : α → β) : Silent (x.map f) := by
  cases x with
  | error e => exact fun p h => hx p (congrArg Except.error (Except.error.inj h))
  | ok a => exact fun p h => nomatch h

theorem Silent.mapM {l : List α} (h : ∀ a, Silent (f a)) : Silent (l.mapM f) := by
  induction l with
  | nil => exact fun p h => nomatch h
  | cons a l ih =>
    rw [mapM_cons]
    exact (h a).bind fun b => ih.bind fun bs p h => nomatch h

end Silent

/-! ## Materialised rows -/

section Materialised

variable [PyTrim]

def terminalNodes (normalized : String) (records : List Json) (primaryKey : Option String) :
    Except PathError (List TraversalNode) := do
  let root ← apiResourceRoot normalized
  let nodes ← initialNodes primaryKey records
  let (nodes, _) ← walk root [] (relativeSegments normalized) (nodes, .many)
  return nodes

theorem apiResourceRoot_ok {path normalized : String} (h : normalizeApiResourcePath path = .ok normalized) :
    ∃ root, apiResourceRoot normalized = .ok root := by
  rw [apiResourceRoot, normalizeApiResourcePath_self h]
  exact ⟨_, rfl⟩

variable {records : List Json} {primaryKey : Option String}

/-- what a call goes through that returns -/
theorem materialize_ok_iff {path : String} {flatten : List String}
    {rows : List Row} : (∃ result, materializeApiResourceRows path records primaryKey flatten = .ok result ∧
        result.rows = rows) ↔
      ∃ normalized flattenPaths nodes, normalizeApiResourcePath path = .ok normalized ∧
        normalizeApiFlattenPaths flatten = .ok flattenPaths ∧
        terminalNodes normalized records primaryKey = .ok nodes ∧
        nodes.mapM (nodeRow flattenPaths (relativeSegments normalized ≠ [])) = .ok rows := by
  constructor
  · rintro ⟨result, h, rfl⟩
    obtain ⟨normalized, hnormalized, h⟩ := of_bind_ok h
    obtain ⟨flattenPaths, hflatten, h⟩ := of_bind_ok h
    obtain ⟨root, hroot, h⟩ := of_bind_ok h
    obtain ⟨nodes, hnodes, h⟩ := of_bind_ok h
    obtain ⟨⟨ends, card⟩, hends, h⟩ := of_bind_ok h
    obtain ⟨rows, hrows, h⟩ := of_bind_ok h
    refine ⟨normalized, flattenPaths, ends, hnormalized, hflatten, ?_, ?_⟩
    · rw [terminalNodes, hroot]
      rw [hnodes]
      exact congrArg (· >>= fun r : List TraversalNode × Cardinality => Except.ok r.1) hends
    · rw [hrows, ← Except.ok.inj h]
  · rintro ⟨normalized, flattenPaths, nodes, hnormalized, hflatten, hnodes, hrows⟩
    obtain ⟨root, hroot, h⟩ := of_bind_ok hnodes
    obtain ⟨first, hfirst, h⟩ := of_bind_ok h
    obtain ⟨⟨ends, card⟩, hends, h⟩ := of_bind_ok h
    cases h
    refine ⟨⟨normalized, root, card, rows⟩, ?_, rfl⟩
    simp only [materializeApiResourceRows, hnormalized, hflatten, hroot, hfirst, hends, hrows, bind, Except.bind]
    rfl

/-- **The nodes at the end** of a path are found exactly if it can be walked, and they are the values there. -/
theorem terminalNodes_cases {path normalized : String} (h : normalizeApiResourcePath path = .ok normalized) :
    ((∃ nodes, terminalNodes normalized records primaryKey = .ok nodes) ↔
      HashableKeys primaryKey records ∧ Walkable (relativeSegments normalized) (starts records)) ∧
    ∀ nodes, terminalNodes normalized records primaryKey = .ok nodes →
      nodes.map TraversalNode.place = reached (relativeSegments normalized) (starts records) := by
  obtain ⟨root, hroot⟩ := apiResourceRoot_ok h
  by_cases hkeyed : HashableKeys primaryKey records
  · obtain ⟨first, hfirst, hstarts⟩ := initialNodes_of_hashable hkeyed
    have hnodes : terminalNodes normalized records primaryKey =
        (walk root [] (relativeSegments normalized) (first, .many)).map Prod.fst := by
      simp only [terminalNodes, hroot, hfirst, bind, Except.bind]
      cases walk root [] (relativeSegments normalized) (first, .many) <;> rfl
    rw [hnodes]
    refine ⟨⟨?_, ?_⟩, ?_⟩
    · rintro ⟨nodes, hok⟩
      obtain ⟨r, hr, -⟩ := map_eq_ok_iff.1 hok
      rw [← hstarts]
      exact ⟨hkeyed, walkable_of_walk hr⟩
    · rintro ⟨-, hwalkable⟩
      rw [← hstarts] at hwalkable
      obtain ⟨nodes, card, hwalk, -⟩ := walk_of_walkable root [] .many hwalkable
      exact ⟨nodes, map_eq_ok_iff.2 ⟨_, hwalk, rfl⟩⟩
    · intro nodes hok
      obtain ⟨⟨ends, card⟩, hr, rfl⟩ := map_eq_ok_iff.1 hok
      obtain ⟨ends', card', hwalk, hreached⟩ := walk_of_walkable root [] .many (walkable_of_walk hr)
      obtain ⟨rfl, rfl⟩ := Prod.mk.inj (Except.ok.inj (hr.symm.trans hwalk))
      rw [hreached, hstarts]
  · have hnodes : terminalNodes normalized records primaryKey = .error .unhashable := by
      simp only [terminalNodes, hroot, initialNodes_of_not_hashable hkeyed, bind, Except.bind]
    rw [hnodes]
    refine ⟨iff_of_false (fun ⟨_, h⟩ => nomatch h) fun h => hkeyed h.1, fun _ h => nomatch h⟩

omit [PyTrim] in
theorem initialNodes_silent (primaryKey : Option String) (records : List Json) :
    Silent (initialNodes primaryKey records) := by
  intro p h
  by_cases hkeyed : HashableKeys primaryKey records
  · obtain ⟨nodes, hnodes, -⟩ := initialNodes_of_hashable hkeyed
    cases hnodes.symm.trans h
  · cases (initialNodes_of_not_hashable hkeyed).symm.trans h

omit [PyTrim] in
theorem normalizeApiResourcePath_silent [PyText] (path : String) : Silent (normalizeApiResourcePath path) := by
  intro p h
  rw [normalizeApiResourcePath] at h
  split_ifs at h
  cases h

/-- **A missing path** is reported exactly where the walk from the records ends. -/
theorem materialize_missing_iff {path : String} {flatten : List String} {p : String} :
    materializeApiResourceRows path records primaryKey flatten = .error (.missing p) ↔
      ∃ normalized, normalizeApiResourcePath path = .ok normalized ∧ ∃ flattenPaths,
        normalizeApiFlattenPaths flatten = .ok flattenPaths ∧ ∃ root, apiResourceRoot normalized = .ok root ∧
        HashableKeys primaryKey records ∧ ∃ done segment,
          EndsAt (relativeSegments normalized) (starts records) done segment ∧
            p = stepPath root (done ++ [segment]) := by
  rw [materializeApiResourceRows, (normalizeApiResourcePath_silent path).bind_iff]
  refine exists_congr fun normalized => and_congr_right fun _ => ?_
  have hflatten : Silent (normalizeApiFlattenPaths flatten) :=
    (Silent.mapM fun path => normalizeApiResourcePath_silent path).map _
  rw [hflatten.bind_iff]
  refine exists_congr fun flattenPaths => and_congr_right fun _ => ?_
  have hroot : Silent (apiResourceRoot normalized) := (normalizeApiResourcePath_silent normalized).map _
  rw [hroot.bind_iff]
  refine exists_congr fun root => and_congr_right fun _ => ?_
  rw [(initialNodes_silent primaryKey records).bind_iff]
  have hrest : ∀ nodes, ((walk root [] (relativeSegments normalized) (nodes, .many) >>= fun r => do
        let rows ← r.1.mapM (nodeRow flattenPaths (relativeSegments normalized ≠ []))
        return (⟨normalized, root, r.2, rows⟩ : MaterializedRows)) = .error (.missing p)) ↔
      ∃ done segment, EndsAt (relativeSegments normalized) (nodes.map TraversalNode.place) done segment ∧
        p = stepPath root (done ++ [segment]) := by
    intro nodes
    rw [Silent.tail_iff, walk_missing_iff]
    · rfl
    · refine fun r => (Silent.mapM fun node q h => ?_).bind fun rows q h => by cases h
      obtain ⟨_, hq⟩ := nodeRow_error h
      cases hq
  constructor
  · rintro ⟨nodes, hnodes, h⟩
    have hkeyed : HashableKeys primaryKey records := by
      by_contra hno
      cases (initialNodes_of_not_hashable hno).symm.trans hnodes
    obtain ⟨nodes', hnodes', hstarts⟩ := initialNodes_of_hashable hkeyed
    obtain rfl := Except.ok.inj (hnodes.symm.trans hnodes')
    rw [← hstarts]
    exact ⟨hkeyed, (hrest nodes).1 h⟩
  · rintro ⟨hkeyed, hends⟩
    obtain ⟨nodes, hnodes, hstarts⟩ := initialNodes_of_hashable hkeyed
    rw [← hstarts] at hends
    exact ⟨nodes, hnodes, (hrest nodes).2 hends⟩

omit [PyTrim] in
/-- longer lists of steps have longer texts -/
theorem stepPath_append_length (root : String) (steps : List String) {more : List String} (h : more ≠ []) :
    (stepPath root steps).length < (stepPath root (steps ++ more)).length := by
  rw [stepPath, stepPath, ← cons_append, String.intercalate_append_of_ne_nil (cons_ne_nil _ _) h]
  simp only [String.length_append]
  have hdot : ".".length = 1 := rfl
  omega

omit [PyTrim] in
/-- the steps of one path have different texts -/
theorem stepPath_inj {root : String} {segs steps steps' : List String} (h : steps <+: segs) (h' : steps' <+: segs)
    (heq : stepPath root steps = stepPath root steps') : steps = steps' := by
  have hone : ∀ {a b : List String}, a <+: b → stepPath root a = stepPath root b → a = b := by
    rintro a _ ⟨more, rfl⟩ heq
    by_contra hne
    have hmore : more ≠ [] := fun hnil => hne (by rw [hnil, append_nil])
    have hlength := stepPath_append_length root a hmore
    rw [heq] at hlength
    exact lt_irrefl _ hlength
  rcases prefix_or_prefix_of_prefix h h' with hle | hle
  · exact hone hle heq
  · exact (hone hle heq.symm).symm

/-- Rows are complete, and a path is reported missing only where no record has a value. -/
structure Materializes (path : String) (records : List Json) (primaryKey : Option String) (flatten : List String) :
    Prop where
  rows : ∀ result, materializeApiResourceRows path records primaryKey flatten = .ok result →
    ∃ normalized flattenPaths nodes, normalizeApiResourcePath path = .ok normalized ∧
      normalizeApiFlattenPaths flatten = .ok flattenPaths ∧
      terminalNodes normalized records primaryKey = .ok nodes ∧
      List.Forall₂ (Complete flattenPaths (relativeSegments normalized ≠ [])) nodes result.rows
  missing : ∀ p, materializeApiResourceRows path records primaryKey flatten = .error (.missing p) →
    ∃ normalized root done segment, normalizeApiResourcePath path = .ok normalized ∧
      apiResourceRoot normalized = .ok root ∧ done ++ [segment] <+: relativeSegments normalized ∧
      p = stepPath root (done ++ [segment]) ∧
      ∀ v ∈ reached done (starts records), childAt segment v.1 = .null

/-- The columns of every row are apart, and no walk ends at lists that are all empty. -/
structure MaterializesWhen (path : String) (records : List Json) (primaryKey : Option String) (flatten : List String) :
    Prop where
  rows : ∀ normalized, normalizeApiResourcePath path = .ok normalized →
    ∀ flattenPaths, normalizeApiFlattenPaths flatten = .ok flattenPaths →
    HashableKeys primaryKey records → Walkable (relativeSegments normalized) (starts records) →
    (∀ v ∈ reached (relativeSegments normalized) (starts records), rowBuilt flattenPaths v.1 = true) →
    ∀ v ∈ reached (relativeSegments normalized) (starts records),
      Apart flattenPaths (relativeSegments normalized ≠ []) v
  lists : ∀ normalized, normalizeApiResourcePath path = .ok normalized →
    (∃ flattenPaths, normalizeApiFlattenPaths flatten = .ok flattenPaths) → HashableKeys primaryKey records →
    ∀ done segment, done ++ [segment] <+: relativeSegments normalized → Walkable done (starts records) →
    (∀ v ∈ reached done (starts records), childAt segment v.1 = .null ∨ childAt segment v.1 = .arr []) →
    ∀ v ∈ reached done (starts records), childAt segment v.1 = .null

omit [PyTrim] in
theorem stepTo_eq_nil_iff {segment : String} {places : List (Json × Bool)} :
    stepTo segment places = [] ↔ ∀ v ∈ places, childAt segment v.1 = .null ∨ childAt segment v.1 = .arr [] := by
  rw [stepTo, flatMap_eq_nil_iff]
  refine forall₂_congr fun v _ => ?_
  cases childAt segment v.1 with
  | arr items => simp [placesOf]
  | _ => simp [placesOf]

/-- **Materialised rows** are complete and missing paths are missing exactly under this condition. -/
theorem materialized_iff (path : String) (records : List Json) (primaryKey : Option String) (flatten : List String) :
    Materializes path records primaryKey flatten ↔ MaterializesWhen path records primaryKey flatten := by
  constructor
  · rintro ⟨hrows, hmissing⟩
    refine ⟨fun normalized hnormalized flattenPaths hflatten hkeyed hwalkable hbuilt => ?_,
      fun normalized hnormalized hflatten hkeyed done segment hstep hwalkable hempty => ?_⟩
    · obtain ⟨nodes, hnodes⟩ := (terminalNodes_cases hnormalized).1.2 ⟨hkeyed, hwalkable⟩
      have hplaces := (terminalNodes_cases hnormalized).2 nodes hnodes
      rw [← hplaces] at hbuilt ⊢
      obtain ⟨rows, hmapM⟩ := mapM_ok (nodeRow flattenPaths (relativeSegments normalized ≠ [])) nodes fun node hnode =>
        (nodeRow_ok_iff _ _ node).2 (hbuilt node.place (mem_map_of_mem hnode))
      obtain ⟨result, hresult, rfl⟩ := materialize_ok_iff.2
        ⟨normalized, flattenPaths, nodes, hnormalized, hflatten, hnodes, hmapM⟩
      obtain ⟨normalized', flattenPaths', nodes', hnormalized', hflatten', hnodes', hall⟩ := hrows result hresult
      obtain rfl := Except.ok.inj (hnormalized.symm.trans hnormalized')
      obtain rfl := Except.ok.inj (hflatten.symm.trans hflatten')
      obtain rfl := Except.ok.inj (hnodes.symm.trans hnodes')
      intro v hv
      obtain ⟨node, hnode, rfl⟩ := mem_map.1 hv
      obtain ⟨i, hi, rfl⟩ := mem_iff_getElem.1 hnode
      have hrow := List.Forall₂.get (forall₂_of_mapM hmapM) hi ((forall₂_of_mapM hmapM).length_eq ▸ hi)
      exact (complete_iff hrow).1 (List.Forall₂.get hall hi _)
    · by_contra hno
      obtain ⟨flattenPaths, hflatten⟩ := hflatten
      obtain ⟨root, hroot⟩ := apiResourceRoot_ok hnormalized
      have hsome : reached done (starts records) ≠ [] := by
        intro hnil
        rw [hnil] at hno
        exact hno fun v hv => nomatch hv
      have hends : EndsAt (relativeSegments normalized) (starts records) done segment :=
        ⟨hstep, hwalkable, hsome, stepTo_eq_nil_iff.2 hempty⟩
      obtain ⟨normalized', root', done', segment', hnormalized', hroot', hstep', htext, hnull⟩ := hmissing _
        (materialize_missing_iff.2 ⟨normalized, hnormalized, flattenPaths, hflatten, root, hroot, hkeyed, done, segment,
          hends, rfl⟩)
      obtain rfl := Except.ok.inj (hnormalized.symm.trans hnormalized')
      obtain rfl := Except.ok.inj (hroot.symm.trans hroot')
      obtain ⟨rfl, hsegment⟩ := append_inj' (stepPath_inj hstep hstep' htext) rfl
      obtain rfl := singleton_inj.1 hsegment
      exact hno hnull
  · rintro ⟨hrows, hlists⟩
    refine ⟨fun result hresult => ?_, fun p hp => ?_⟩
    · obtain ⟨normalized, flattenPaths, nodes, hnormalized, hflatten, hnodes, hmapM⟩ :=
        materialize_ok_iff.1 ⟨result, hresult, rfl⟩
      obtain ⟨hkeyed, hwalkable⟩ := (terminalNodes_cases hnormalized).1.1 ⟨nodes, hnodes⟩
      have hplaces := (terminalNodes_cases hnormalized).2 nodes hnodes
      have hapart := hrows normalized hnormalized flattenPaths hflatten hkeyed hwalkable
      rw [← hplaces, forall_mem_map, forall_mem_map] at hapart
      have hall := forall₂_of_mapM hmapM
      have hbuilt : ∀ node ∈ nodes, rowBuilt flattenPaths node.place.1 = true := by
        intro node hnode
        obtain ⟨row, -, hrow⟩ := forall₂_exists_right hall node hnode
        exact (nodeRow_ok_iff _ _ node).1 ⟨row, hrow⟩
      refine ⟨normalized, flattenPaths, nodes, hnormalized, hflatten, hnodes, ?_⟩
      refine List.forall₂_iff_get.2 ⟨hall.length_eq, fun i hi hi' => ?_⟩
      exact (complete_iff (List.Forall₂.get hall hi hi')).2 (hapart hbuilt _ (get_mem _ _))
    · obtain ⟨normalized, hnormalized, flattenPaths, hflatten, root, hroot, hkeyed, done, segment, hends, rfl⟩ :=
        materialize_missing_iff.1 hp
      exact ⟨normalized, root, done, segment, hnormalized, hroot, hends.step, rfl,
        hlists normalized hnormalized ⟨flattenPaths, hflatten⟩ hkeyed done segment hends.step hends.walked
          (stepTo_eq_nil_iff.1 hends.none)⟩

end Materialised

/-! ## A flatten path of two names -/

section Runs

open scoped Ascii

/-- a record with an object inside an object -/
def nestedRecord : Json := .obj [("id", .int 1), ("a", .obj [("b", .obj [("c", .int 2)])])]

/-- the fields below a flatten path of two names have no columns -/
theorem flatten_lost : ¬ Materializes "orders" [nestedRecord] (some "id") ["a.b"] := by
  rintro ⟨hrows, -⟩
  have hrun : materializeApiResourceRows "orders" [nestedRecord] (some "id") ["a.b"] =
      .ok ⟨"orders", "orders", .many, [Dict.ofList [("id", .int 1)]]⟩ := rfl
  obtain ⟨normalized, flattenPaths, nodes, hnormalized, hflatten, hnodes, hall⟩ := hrows _ hrun
  have hself : normalizeApiResourcePath "orders" = .ok "orders" := by decide +kernel
  have hpaths : normalizeApiFlattenPaths ["a.b"] = .ok ["a.b"] := by decide +kernel
  have hends : terminalNodes "orders" [nestedRecord] (some "id") = .ok [⟨nestedRecord, .null, .int 1, none⟩] := rfl
  obtain rfl := Except.ok.inj (hself.symm.trans hnormalized)
  obtain rfl := Except.ok.inj (hpaths.symm.trans hflatten)
  obtain rfl := Except.ok.inj (hends.symm.trans hnodes)
  have hlength := (List.forall₂_cons.1 hall).1.length_eq
  revert hlength
  decide +kernel

end Runs

end Langbridge.Runtime
