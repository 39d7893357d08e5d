/-
The resolver of member names (`semantic/query/resolver.py`). A text without a dot is looked up among the names of all
members of its kind, one with a dot among `key.name` of all datasets and, failing that, under the dataset whose compound
name its first three or else its first two segments are. Dimensions, measures and segments are looked up alike.
-/
import Langbridge.Semantic.Model

namespace Langbridge.Semantic.Resolver

open Core List

structure DimensionRef where
  dataset : String
  column : String
  expression : String
  dataType : String
  aliasName : Option String
deriving DecidableEq

structure MeasureRef where
  dataset : String
  column : String
  expression : String
  dataType : String
  aggregation : Option String
deriving DecidableEq

structure SegmentRef where
  dataset : String
  key : String
  condition : String
deriving DecidableEq

/-! ## Kinds of members -/

/-- a kind of member: what an error calls it, the members of a dataset with their names, and the reference made from a
dataset, the rest of the text and a member -/
structure MemberKind (M Ref : Type) where
  noun : String
  members : Dataset → List (String × M)
  ref : String → String → M → Ref

def dimensions : MemberKind Dimension DimensionRef where
  noun := "dimension"
  members d := (d.dimensions.getD []).map fun m => (m.name, m)
  ref dataset _ m := ⟨dataset, m.name, orElse m.expression m.name, m.type, m.aliasName⟩

def measures : MemberKind Measure MeasureRef where
  noun := "measure"
  members d := (d.measures.getD []).map fun m => (m.name, m)
  ref dataset _ m := ⟨dataset, m.name, orElse m.expression m.name, m.type, m.aggregation⟩

def segments : MemberKind DatasetFilter SegmentRef where
  noun := "segment"
  members d := (d.filters.getD Dict.empty).entries
  ref dataset key m := ⟨dataset, key, m.condition⟩

structure Filing (M : Type) where
  dataset : String
  name : String
  member : M

/-- the text it is filed under -/
def Filing.key {M : Type} (f : Filing M) : String := f.dataset ++ "." ++ f.name

/-! ## Resolving -/

/-- what is before the first dot of a text, `text.split(".", 1)[0]` -/
def beforeDot (text : String) : String := String.ofList (text.toList.takeWhile (· ≠ '.'))

/-- what is behind it -/
def afterDot (text : String) : String := String.ofList ((text.toList.dropWhile (· ≠ '.')).drop 1)

def joinParts (parts : List String) : String := ".".intercalate (parts.filter (· ≠ ""))

section Resolve

variable [PyText]

/-- the compound names of a dataset: its relation, with its schema, and with its catalog -/
def compoundNames (datasetKey : String) (d : Dataset) : List String :=
  let relation := d.getRelationName datasetKey
  let schemaRelation := joinParts [d.schemaName.getD "", relation]
  let catalog := d.catalogName.getD ""
  ([relation] ++
    (if schemaRelation = "" then []
      else schemaRelation :: if catalog = "" then [] else [catalog ++ "." ++ schemaRelation])).filter (· ≠ "")

def datasetsByCompound (model : SemanticModel) : Dict String String :=
  Dict.ofList (model.datasets.entries.flatMap fun e => (compoundNames e.1 e.2).map fun name => (name, e.1))

def resolveCompoundMember (model : SemanticModel) (member : String) : Option (String × String) :=
  let parts := (member.toList.splitOn '.').map String.ofList
  if parts.length < 3 then none
  else
    [3, 2].findSome? fun size =>
      let column := ".".intercalate (parts.drop size)
      match (datasetsByCompound model).get? (".".intercalate (parts.take size)) with
      | some datasetKey => if datasetKey ≠ "" ∧ column ≠ "" then some (datasetKey, column) else none
      | none => none

variable {M Ref : Type} (K : MemberKind M Ref) (model : SemanticModel)

/-- every member of the model, in the order in which the indexes are built -/
def filings : List (Filing M) :=
  model.datasets.entries.flatMap fun e => (K.members e.2).map fun m => ⟨e.1, m.1, m.2⟩

/-- the index of `key.name` -/
def byKey : Dict String M := Dict.ofList ((filings K model).map fun f => (f.key, f.member))

/-- the entry of the index of names -/
def byName (name : String) : List (Filing M) := (filings K model).filter fun f => f.name = name

def unknown (text : String) : SemanticModelError := ⟨"Unknown " ++ K.noun ++ " '" ++ text ++ "'."⟩

def ambiguous (text : String) (found : List String) : SemanticModelError :=
  ⟨"Ambiguous " ++ K.noun ++ " '" ++ text ++ "'. Use dataset prefix. (" ++
    ", ".intercalate (found.mergeSort (· ≤ ·)) ++ ")"⟩

/-- a text that is not filed as it stands -/
def resolveCompound (text : String) : Except SemanticModelError Ref :=
  match resolveCompoundMember model text with
  | some (datasetKey, column) =>
    match (byKey K model).get? (datasetKey ++ "." ++ column) with
    | some m => .ok (K.ref datasetKey column m)
    | none => .error (unknown K text)
  | none => .error (unknown K text)

/-- `_resolve_dimension`, `_resolve_measure`, `_resolve_filter` with the reference made of their result -/
def resolve (text : String) : Except SemanticModelError Ref :=
  if '.' ∈ text.toList then
    match (byKey K model).get? text with
    | some m => .ok (K.ref (beforeDot text) (afterDot text) m)
    | none => resolveCompound K model text
  else
    match byName K model text with
    | [] => .error (unknown K text)
    | [f] => .ok (K.ref f.dataset f.name f.member)
    | found => .error (ambiguous K text (found.map Filing.dataset))

def resolveDimension (text : String) : Except SemanticModelError DimensionRef := resolve dimensions model text

def resolveMeasure (text : String) : Except SemanticModelError MeasureRef := resolve measures model text

def resolveSegment (text : String) : Except SemanticModelError SegmentRef := resolve segments model text

/-! ## What a text names -/

def Declared (r : Ref) : Prop :=
  ∃ key d name m, model.datasets.get? key = some d ∧ (name, m) ∈ K.members d ∧ r = K.ref key name m

/-- the text names a member of the dataset: by its name alone, behind the dataset's key, or behind a compound name of
two or three segments -/
def Names (text datasetKey : String) : Prop :=
  ∃ d name m, model.datasets.get? datasetKey = some d ∧ (name, m) ∈ K.members d ∧
    ('.' ∉ text.toList ∧ text = name ∨ text = datasetKey ++ "." ++ name ∨
      ∃ compound ∈ compoundNames datasetKey d, (compound.toList.splitOn '.').length ∈ [2, 3] ∧
        text = compound ++ "." ++ name)

/-- no two datasets -/
def NamesOne (text : String) : Prop :=
  ∀ key key', Names K model text key → Names K model text key' → key = key'

def lastFiling (text : String) : Option (Filing M) := ((filings K model).filter fun f => f.key = text).getLast?

/-- The text is unmistaken: where it is the key of a dataset, a dot and a member of it, no other dataset is named, and
the key holds no dot unless the part before its first dot is a key with an equal member; where it is a compound name and
more, no two datasets are named, and the member filed under the key of the last dataset of that name is declared
there. -/
structure Unmistaken (text : String) : Prop where
  byKey : ∀ f, lastFiling K model text = some f → NamesOne K model text ∧
    ('.' ∉ f.dataset.toList ∨ Declared K model (K.ref (beforeDot text) (afterDot text) f.member))
  byCompound : lastFiling K model text = none → ∀ datasetKey column,
    resolveCompoundMember model text = some (datasetKey, column) →
      ∀ f, lastFiling K model (datasetKey ++ "." ++ column) = some f → NamesOne K model text ∧
        (f.dataset = datasetKey ∨ Declared K model (K.ref datasetKey column f.member))

/-! ## The indexes -/

variable {f : Filing M}

omit [PyText] in
theorem mem_filings :
    f ∈ filings K model ↔ ∃ d, model.datasets.get? f.dataset = some d ∧ (f.name, f.member) ∈ K.members d := by
  simp only [filings, mem_flatMap, mem_map]
  apply Iff.intro
  · rintro ⟨⟨key, d⟩, hentry, ⟨name, m⟩, hm, rfl⟩
    exact ⟨d, (model.datasets.get?_eq_some_iff key d).2 hentry, hm⟩
  · rintro ⟨d, hget, hm⟩
    exact ⟨⟨f.dataset, d⟩, (model.datasets.get?_eq_some_iff f.dataset d).1 hget, ⟨f.name, f.member⟩, hm, rfl⟩

omit [PyText] in
theorem declared_of_mem_filings (h : f ∈ filings K model) : Declared K model (K.ref f.dataset f.name f.member) := by
  obtain ⟨d, hget, hm⟩ := (mem_filings K model).1 h
  exact ⟨f.dataset, d, f.name, f.member, hget, hm, rfl⟩

variable {text : String}

omit [PyText] in
theorem of_lastFiling (h : lastFiling K model text = some f) : f ∈ filings K model ∧ f.key = text := by
  have hmem := mem_of_getLast? h
  rw [mem_filter, decide_eq_true_eq] at hmem
  exact hmem

omit [PyText] in
theorem byKey_get? (text : String) : (byKey K model).get? text = (lastFiling K model text).map Filing.member := by
  rw [byKey, Dict.get?_ofList, lastFiling, filter_map, getLast?_map, Option.map_map]
  rfl

/-! ## Dots -/

omit [PyText] in
theorem dot_mem_key (f : Filing M) : '.' ∈ f.key.toList := by
  simp [Filing.key]

omit [PyText] in
theorem beforeDot_append {key rest : String} (h : '.' ∉ key.toList) : beforeDot (key ++ "." ++ rest) = key := by
  have htake : (key.toList ++ '.' :: rest.toList).takeWhile (· ≠ '.') = key.toList := by
    rw [takeWhile_append_of_pos]
    · simp
    · intro c hc
      exact decide_eq_true fun heq => h (heq ▸ hc)
  rw [beforeDot, String.toList_append, String.toList_append, append_assoc]
  exact (congrArg String.ofList htake).trans (String.ofList_toList)

omit [PyText] in
theorem afterDot_append {key rest : String} (h : '.' ∉ key.toList) : afterDot (key ++ "." ++ rest) = rest := by
  have hdrop : (key.toList ++ '.' :: rest.toList).dropWhile (· ≠ '.') = '.' :: rest.toList := by
    rw [dropWhile_append_of_pos]
    · simp
    · intro c hc
      exact decide_eq_true fun heq => h (heq ▸ hc)
  rw [afterDot, String.toList_append, String.toList_append, append_assoc]
  change String.ofList (List.drop 1 (List.dropWhile _ (key.toList ++ '.' :: rest.toList))) = rest
  rw [hdrop, drop_one, tail_cons, String.ofList_toList]

/-! ## Soundness -/

/-- what the resolver gives for a text is declared, and the text names no two datasets -/
def Sound (text : String) : Prop :=
  ∀ r, resolve K model text = .ok r → Declared K model r ∧ NamesOne K model text

/-- a text without a dot -/
theorem sound_of_undotted (hdot : '.' ∉ text.toList) : Sound K model text := by
  intro r hr
  rw [resolve, if_neg hdot] at hr
  split at hr
  · cases hr
  · rename_i f hone
    have hmem : f ∈ byName K model text := by
      rw [hone]
      exact mem_singleton_self f
    rw [byName, mem_filter, decide_eq_true_eq] at hmem
    refine ⟨Except.ok.inj hr ▸ declared_of_mem_filings K model hmem.1, ?_⟩
    have hdataset : ∀ key, Names K model text key → key = f.dataset := by
      rintro key ⟨d, name, m, hget, hm, ⟨-, rfl⟩ | rfl | ⟨compound, -, -, rfl⟩⟩
      · have hfiled : (⟨key, text, m⟩ : Filing M) ∈ byName K model text := by
          rw [byName, mem_filter, decide_eq_true_eq]
          exact ⟨(mem_filings K model).2 ⟨d, hget, hm⟩, rfl⟩
        rw [hone, mem_singleton] at hfiled
        rw [← hfiled]
      · exact absurd (by simp) hdot
      · exact absurd (by simp) hdot
    intro key key' hkey hkey'
    rw [hdataset key hkey, hdataset key' hkey']
  · cases hr

theorem unmistaken_of_undotted (hdot : '.' ∉ text.toList) : Unmistaken K model text := by
  refine ⟨?_, ?_⟩
  · intro f hf
    exact absurd ((of_lastFiling K model hf).2 ▸ dot_mem_key f) hdot
  · intro _ datasetKey column hcompound
    have hsplit : text.toList.splitOn '.' = [text.toList] := splitOn_eq_singleton hdot
    rw [resolveCompoundMember, hsplit] at hcompound
    cases hcompound

theorem sound_iff_of_filed (hdot : '.' ∈ text.toList) (hf : lastFiling K model text = some f) :
    Sound K model text ↔ NamesOne K model text ∧
      ('.' ∉ f.dataset.toList ∨ Declared K model (K.ref (beforeDot text) (afterDot text) f.member)) := by
  have hresolve : resolve K model text = .ok (K.ref (beforeDot text) (afterDot text) f.member) := by
    rw [resolve, if_pos hdot, byKey_get?, hf]
    rfl
  obtain ⟨hmem, hkey⟩ := of_lastFiling K model hf
  have hplain : '.' ∉ f.dataset.toList → Declared K model (K.ref (beforeDot text) (afterDot text) f.member) := by
    intro h
    rw [← hkey, Filing.key, beforeDot_append h, afterDot_append h]
    exact declared_of_mem_filings K model hmem
  apply Iff.intro
  · intro h
    obtain ⟨hdeclared, hone⟩ := h _ hresolve
    exact ⟨hone, .inr hdeclared⟩
  · rintro ⟨hone, hplace⟩ r hr
    rw [hresolve] at hr
    exact Except.ok.inj hr ▸ ⟨hplace.elim hplain id, hone⟩

/-- a text that is not, and whose first segments are a compound name -/
theorem sound_iff_of_compound (hdot : '.' ∈ text.toList) (hnone : lastFiling K model text = none)
    {datasetKey column : String} (hcompound : resolveCompoundMember model text = some (datasetKey, column)) :
    Sound K model text ↔ ∀ f, lastFiling K model (datasetKey ++ "." ++ column) = some f → NamesOne K model text ∧
      (f.dataset = datasetKey ∨ Declared K model (K.ref datasetKey column f.member)) := by
  have hresolve : resolve K model text =
      match lastFiling K model (datasetKey ++ "." ++ column) with
      | some f => .ok (K.ref datasetKey column f.member)
      | none => .error (unknown K text) := by
    rw [resolve, if_pos hdot, byKey_get?, hnone]
    simp only [Option.map_none, resolveCompound, hcompound, byKey_get?]
    cases lastFiling K model (datasetKey ++ "." ++ column) <;> rfl
  apply Iff.intro
  · intro h f hf
    rw [hf] at hresolve
    obtain ⟨hdeclared, hone⟩ := h _ hresolve
    exact ⟨hone, .inr hdeclared⟩
  · intro h r hr
    rw [hresolve] at hr
    split at hr
    · rename_i f hf
      obtain ⟨hone, hplace⟩ := h f hf
      refine Except.ok.inj hr ▸ ⟨?_, hone⟩
      rcases hplace with rfl | hdeclared
      · obtain ⟨hmem, hkey⟩ := of_lastFiling K model hf
        have hname : column = f.name := (String.append_right_inj (f.dataset ++ ".")).1 hkey.symm
        rw [hname]
        exact declared_of_mem_filings K model hmem
      · exact hdeclared
    · cases hr

/-- **One kind of member.** -/
theorem sound_iff (text : String) : Sound K model text ↔ Unmistaken K model text := by
  by_cases hdot : '.' ∈ text.toList
  · cases hf : lastFiling K model text with
    | some f =>
      rw [sound_iff_of_filed K model hdot hf]
      apply Iff.intro
      · intro h
        refine ⟨fun f' hf' => ?_, fun hnone => ?_⟩
        · exact Option.some.inj (hf.symm.trans hf') ▸ h
        · rw [hf] at hnone
          cases hnone
      · exact fun h => h.byKey f hf
    | none =>
      cases hcompound : resolveCompoundMember model text with
      | some found =>
        obtain ⟨datasetKey, column⟩ := found
        rw [sound_iff_of_compound K model hdot hf hcompound]
        apply Iff.intro
        · intro h
          refine ⟨fun f' hf' => ?_, fun _ key' column' hcompound' => ?_⟩
          · rw [hf] at hf'
            cases hf'
          · obtain ⟨rfl, rfl⟩ := Prod.mk.inj (Option.some.inj (hcompound.symm.trans hcompound'))
            exact h
        · exact fun h => h.byCompound hf datasetKey column hcompound
      | none =>
        refine iff_of_true (fun r hr => ?_) ⟨fun f' hf' => ?_, fun _ key' column' hcompound' => ?_⟩
        · rw [resolve, if_pos hdot, byKey_get?, hf] at hr
          simp only [Option.map_none, resolveCompound, hcompound] at hr
          cases hr
        · rw [hf] at hf'
          cases hf'
        · rw [hcompound] at hcompound'
          cases hcompound'
  · exact iff_of_true (sound_of_undotted K model hdot) (unmistaken_of_undotted K model hdot)

/-- **Dimensions, measures and segments**: what is resolved is declared by its dataset, and a text that names members of
two datasets is refused, exactly where the text is unmistaken. -/
theorem resolve_sound_iff (text : String) :
    ((∀ r, resolveDimension model text = .ok r →
        Declared dimensions model r ∧ NamesOne dimensions model text) ↔ Unmistaken dimensions model text) ∧
    ((∀ r, resolveMeasure model text = .ok r →
        Declared measures model r ∧ NamesOne measures model text) ↔ Unmistaken measures model text) ∧
    ((∀ r, resolveSegment model text = .ok r →
        Declared segments model r ∧ NamesOne segments model text) ↔ Unmistaken segments model text) :=
  ⟨sound_iff dimensions model text, sound_iff measures model text, sound_iff segments model text⟩

end Resolve

/-! ## Mistaken texts -/

section Mistaken

open scoped Ascii

def ordersDataset (schemaName : Option String) : Dataset :=
  { relationName := some "orders", schemaName := schemaName, catalogName := none,
    dimensions := some [⟨"id", none, "integer", none⟩], measures := none, filters := none }

/-- its key holds a dot -/
def dottedModel : SemanticModel := ⟨Dict.ofList [("sales.orders", ordersDataset none)], none, none⟩

/-- **A key that holds a dot** is cut at its first dot: the dimension is given to a dataset that the model does not
have. -/
theorem dotted_key_split :
    resolveDimension dottedModel "sales.orders.id" = .ok ⟨"sales", "id", "id", "integer", none⟩ ∧
      ¬Declared dimensions dottedModel ⟨"sales", "id", "id", "integer", none⟩ := by
  refine ⟨by decide +kernel, ?_⟩
  rintro ⟨key, d, name, m, hget, -, href⟩
  have hkey : key = "sales" := (congrArg DimensionRef.dataset href).symm
  have hnone : dottedModel.datasets.get? "sales" = none := by decide +kernel
  rw [hkey, hnone] at hget
  cases hget

end Mistaken

end Langbridge.Semantic.Resolver
