/-
The names of vector indexes (`runtime/services/semantic_vector_search_service.py`): a configured name, or one made of the
workspace, the semantic model, the dataset and the dimension, in which every run of characters other than ASCII letters,
digits and underscores becomes one underscore.

The parts are joined by the separator that they may contain, and the ids are cut to eight digits, so that two
dimensions can have one index.
-/
import Langbridge.Core.Text
import Mathlib.Data.List.DropRight

namespace Langbridge.Runtime.VectorIndex

open Core List Function

/-! ## The name of an index -/

/-- `[a-zA-Z0-9_]` -/
def isSafe (c : Char) : Bool := c.isAlphanum || c = '_'

/-- `_SAFE_INDEX_RE.sub("_", text)`, from within a run of other characters or not -/
def subUnsafe : Bool → List Char → List Char
  | _, [] => []
  | inRun, c :: cs =>
    if isSafe c then c :: subUnsafe false cs
    else if inRun then subUnsafe true cs
    else '_' :: subUnsafe true cs

structure Uuid where
  hex : List Char
  long : hex.length = 32
  digits : ∀ c ∈ hex, c.isDigit = true ∨ 'a' ≤ c ∧ c ≤ 'f'

structure IndexSlot where
  semanticModelId : Uuid
  datasetKey : String
  dimensionName : String
  configuredName : Option String

section Names

variable [PyText]

/-- the first word of every name that is not configured -/
def semantic : List Char := ['s', 'e', 'm', 'a', 'n', 't', 'i', 'c']

/-- the name before it is made safe -/
def candidate (workspaceId : Uuid) (i : IndexSlot) : List Char :=
  let configured := PyText.strip (i.configuredName.getD "")
  if configured = "" then
    semantic ++ '_' :: (workspaceId.hex.take 8 ++ '_' :: (i.semanticModelId.hex.take 8 ++
      '_' :: (i.datasetKey.toList ++ '_' :: i.dimensionName.toList)))
  else configured.toList

/-- `f"semantic_{semantic_model_id.hex[:12]}"` -/
def fallbackName (i : IndexSlot) : List Char := semantic ++ '_' :: i.semanticModelId.hex.take 12

/-- `_build_index_name`; the text that is lowered is ASCII -/
def buildIndexName (workspaceId : Uuid) (i : IndexSlot) : List Char :=
  let name := (trim (· = '_') (subUnsafe false (candidate workspaceId i))).map Char.toLower
  if name = [] then fallbackName i else name

/-! ## The vectors of an index -/

/-- the vectors under the names of indexes, each with its value -/
abbrev VectorDB (V : Type) := List Char → Option (List (V × String))

def resetVectorStore {V : Type} (db : VectorDB V) (indexName : List Char) (embeddings : List V)
    (values : List String) : VectorDB V :=
  let deleted := Function.update db indexName none
  if embeddings = [] then deleted else Function.update deleted indexName (some (embeddings.zip values))

/-! ## How a name reads -/

/-- a letter or digit, and what separates them: an underscore or a run of other characters -/
inductive Mark where
  | letter (c : Char)
  | gap
deriving DecidableEq

def marks : Bool → List Char → List Mark
  | _, [] => []
  | inRun, c :: cs =>
    if c.isAlphanum then .letter c.toLower :: marks false cs
    else if c = '_' then .gap :: marks false cs
    else if inRun then marks true cs
    else .gap :: marks true cs

/-- the letters, digits and separators of a name, without separators at its ends -/
def ends (l : List Mark) : List Mark := trim (· = .gap) l

def reading (workspaceId : Uuid) (i : IndexSlot) : List Mark :=
  let l := ends (marks false (candidate workspaceId i))
  if l = [] then marks false (fallbackName i) else l

section Marks

omit [PyText]

def markOf (c : Char) : Mark := if c = '_' then .gap else .letter c

def Mark.char : Mark → Char
  | .letter c => c
  | .gap => '_'

theorem toLower_ne_underscore {c : Char} (h : c.isAlphanum = true) : c.toLower ≠ '_' := by
  intro hlower
  by_cases hupper : 65 ≤ c.toNat ∧ c.toNat ≤ 90
  · have hnat := Ascii.toNat_toLower c hupper
    rw [hlower] at hnat
    change 95 = c.toNat + 32 at hnat
    omega
  · rw [Ascii.toLower_eq c hupper] at hlower
    rw [hlower] at h
    exact absurd h (by decide)

/-- the characters of a safe name are its marks -/
theorem map_markOf_subUnsafe (inRun : Bool) (cs : List Char) :
    ((subUnsafe inRun cs).map Char.toLower).map markOf = marks inRun cs := by
  induction cs generalizing inRun with
  | nil => rfl
  | cons c cs ih =>
    rw [subUnsafe, marks]
    by_cases hword : c.isAlphanum = true
    · have hsafe : isSafe c = true := by
        rw [isSafe, hword]
        rfl
      rw [if_pos hsafe, if_pos hword, map_cons, map_cons, ih, markOf, if_neg (toLower_ne_underscore hword)]
    · rw [if_neg hword]
      by_cases hunder : c = '_'
      · subst hunder
        have hsafe : isSafe '_' = true := by decide
        rw [if_pos hsafe, if_pos rfl, map_cons, map_cons, ih]
        rfl
      · have hsafe : ¬isSafe c = true := by
          rw [isSafe, Bool.or_eq_true, decide_eq_true_eq]
          exact not_or.2 ⟨hword, hunder⟩
        rw [if_neg hsafe, if_neg hunder]
        cases inRun with
        | true => exact ih true
        | false =>
          rw [if_neg Bool.false_ne_true, if_neg Bool.false_ne_true, map_cons, map_cons, ih]
          rfl

theorem char_markOf (c : Char) : (markOf c).char = c := by
  unfold markOf
  split_ifs with h
  · exact h.symm
  · rfl

theorem map_markOf_injective : Function.Injective (List.map markOf) :=
  map_injective_iff.2 (Function.LeftInverse.injective char_markOf)

theorem markOf_eq_gap (c : Char) : markOf c = .gap ↔ c = '_' := by
  unfold markOf
  split_ifs with h <;> simp [h]

theorem toLower_eq_underscore (c : Char) : c.toLower = '_' ↔ c = '_' := by
  constructor
  · intro h
    by_contra hne
    by_cases hupper : 65 ≤ c.toNat ∧ c.toNat ≤ 90
    · have hnat := Ascii.toNat_toLower c hupper
      rw [h] at hnat
      change 95 = c.toNat + 32 at hnat
      omega
    · rw [Ascii.toLower_eq c hupper] at h
      exact hne h
  · rintro rfl
    decide

theorem Uuid.plain (u : Uuid) : ∀ c ∈ u.hex, c.isAlphanum = true ∧ c.toLower = c := by
  intro c hc
  have hdigit : ∀ c : Char, c.isDigit = true ∨ 'a' ≤ c ∧ c ≤ 'f' → c.isAlphanum = true ∧ ¬(65 ≤ c.toNat ∧ c.toNat ≤ 90) := by
    rintro c (hd | ⟨ha, hf⟩)
    · have hle : c.toNat ≤ 57 := by
        rw [Char.isDigit, Bool.and_eq_true, decide_eq_true_eq, decide_eq_true_eq] at hd
        exact hd.2
      refine ⟨?_, by omega⟩
      rw [Char.isAlphanum, hd, Bool.or_true]
    · have ha' : 97 ≤ c.toNat := ha
      have hf' : c.toNat ≤ 102 := hf
      have hlower : c.isLower = true := Ascii.isLower_iff.2 (by omega)
      refine ⟨?_, by omega⟩
      rw [Char.isAlphanum, Ascii.isAlpha_eq, hlower, Bool.or_true, Bool.true_or]
  obtain ⟨hword, hupper⟩ := hdigit c (u.digits c hc)
  exact ⟨hword, Ascii.toLower_eq c hupper⟩

/-- an underscore ends a run of other characters -/
theorem marks_append (inRun : Bool) (cs rest : List Char) :
    marks inRun (cs ++ '_' :: rest) = marks inRun cs ++ .gap :: marks false rest := by
  induction cs generalizing inRun with
  | nil =>
    rfl
  | cons c cs ih =>
    rw [cons_append, marks, marks]
    split_ifs <;> rw [ih] <;> rfl

theorem marks_plain {cs : List Char} (h : ∀ c ∈ cs, c.isAlphanum = true ∧ c.toLower = c) (inRun : Bool) :
    marks inRun cs = cs.map .letter := by
  induction cs generalizing inRun with
  | nil => rfl
  | cons c cs ih =>
    obtain ⟨hword, hlower⟩ := h c mem_cons_self
    rw [marks, if_pos hword, hlower, ih fun c' hc' => h c' (mem_cons_of_mem _ hc')]
    rfl

theorem map_markOf_plain {cs : List Char} (h : ∀ c ∈ cs, c.isAlphanum = true ∧ c.toLower = c) :
    cs.map markOf = cs.map .letter := by
  apply map_congr_left
  intro c hc
  obtain ⟨hword, hlower⟩ := h c hc
  rw [markOf, if_neg fun hc => toLower_ne_underscore hword (hlower.trans hc)]

theorem semantic_plain : ∀ c ∈ semantic, c.isAlphanum = true ∧ c.toLower = c := by
  have hall : semantic.all (fun c => c.isAlphanum && c.toLower = c) = true := by decide
  intro c hc
  have hboth := all_eq_true.1 hall c hc
  rw [Bool.and_eq_true, decide_eq_true_eq] at hboth
  exact hboth

/-- what a list keeps at its end stays when more is put before it -/
theorem rdropWhile_append {α : Type} (p : α → Bool) {l : List α} (a : α) (ha : p a = false) (more : List α) :
    (l ++ a :: more).rdropWhile p = l ++ a :: more.rdropWhile p := by
  induction more using List.reverseRecOn with
  | nil =>
    rw [rdropWhile_concat_neg _ _ _ (by rw [ha]; exact Bool.false_ne_true), rdropWhile_nil]
  | append_singleton more b ih =>
    have hassoc : l ++ a :: (more ++ [b]) = (l ++ a :: more) ++ [b] := by simp
    rw [hassoc, rdropWhile_concat, rdropWhile_concat, ih]
    split_ifs
    · rfl
    · exact hassoc.symm

theorem map_markOf_name (cs : List Char) :
    ((trim (· = '_') (subUnsafe false cs)).map Char.toLower).map markOf = ends (marks false cs) := by
  have hlower : ∀ c : Char, decide (c.toLower = '_') = decide (c = '_') := fun c =>
    decide_eq_decide.2 (toLower_eq_underscore c)
  have hgap : ∀ c : Char, decide (markOf c = .gap) = decide (c = '_') := fun c =>
    decide_eq_decide.2 (markOf_eq_gap c)
  rw [map_trim _ (· = '_') Char.toLower hlower, map_trim _ (· = .gap) markOf hgap, map_markOf_subUnsafe, ends]

end Marks

theorem map_markOf_buildIndexName (w : Uuid) (i : IndexSlot) : (buildIndexName w i).map markOf = reading w i := by
  have hname := map_markOf_name (candidate w i)
  have hfallback : (fallbackName i).map markOf = marks false (fallbackName i) := by
    have hid : ∀ c ∈ i.semanticModelId.hex.take 12, c.isAlphanum = true ∧ c.toLower = c := fun c hc =>
      i.semanticModelId.plain c (mem_of_mem_take hc)
    rw [fallbackName, marks_append, marks_plain hid, marks_plain semantic_plain, map_append, map_cons,
      map_markOf_plain hid, map_markOf_plain semantic_plain]
    rfl
  unfold buildIndexName reading
  rw [← hname]
  simp only [map_eq_nil_iff]
  split_ifs with hempty
  · exact hfallback
  · rfl

/-- **Equal names are equal readings.** -/
theorem buildIndexName_eq_iff (w : Uuid) (i i' : IndexSlot) :
    buildIndexName w i = buildIndexName w i' ↔ reading w i = reading w i' := by
  rw [← map_markOf_buildIndexName, ← map_markOf_buildIndexName]
  exact map_markOf_injective.eq_iff.symm

/-! ## Names that are made of their parts -/

def Unnamed (i : IndexSlot) : Prop := PyText.strip (i.configuredName.getD "") = ""

/-- the digits of the model's id that its names hold -/
def IndexSlot.shortId (i : IndexSlot) : List Char := i.semanticModelId.hex.take 8

/-- the dataset and the dimension, each behind a separator, without separators at the end -/
def IndexSlot.parts (i : IndexSlot) : List Mark :=
  (.gap :: (marks false i.datasetKey.toList ++ .gap :: marks false i.dimensionName.toList)).rdropWhile (· = .gap)

def before (w : Uuid) (i : IndexSlot) : List Mark :=
  semantic.map .letter ++ .gap :: ((w.hex.take 8).map .letter ++ .gap :: i.shortId.map .letter)

omit [PyText] in
theorem IndexSlot.shortId_plain (i : IndexSlot) : ∀ c ∈ i.shortId, c.isAlphanum = true ∧ c.toLower = c := fun c hc =>
  i.semanticModelId.plain c (mem_of_mem_take hc)

omit [PyText] in
theorem IndexSlot.length_shortId (i : IndexSlot) : i.shortId.length = 8 := by
  rw [shortId, length_take, i.semanticModelId.long]
  rfl

theorem reading_unnamed (w : Uuid) {i : IndexSlot} (h : Unnamed i) : reading w i = before w i ++ i.parts := by
  have hw : ∀ c ∈ w.hex.take 8, c.isAlphanum = true ∧ c.toLower = c := fun c hc =>
    w.plain c (mem_of_mem_take hc)
  have hmarks : marks false (candidate w i) = before w i ++
      .gap :: (marks false i.datasetKey.toList ++ .gap :: marks false i.dimensionName.toList) := by
    have hid : marks false (i.semanticModelId.hex.take 8) = i.shortId.map .letter := marks_plain i.shortId_plain false
    unfold Unnamed at h
    rw [candidate, if_pos h, marks_append, marks_append, marks_append, marks_append, marks_plain hw, hid,
      marks_plain semantic_plain, before, append_assoc, cons_append,
      append_assoc, cons_append]
  -- the name begins with a letter, and the id of the model ends with one
  have hstart : (marks false (candidate w i)).dropWhile (· = .gap) = marks false (candidate w i) := by
    apply dropWhile_of_head
    intro a ha
    rw [hmarks, before, semantic] at ha
    cases ha
    rfl
  obtain ⟨first, c, hlast⟩ : ∃ first c, i.shortId = first ++ [c] := by
    rcases eq_nil_or_concat i.shortId with hnil | ⟨first, c, hconcat⟩
    · have hlength := i.length_shortId
      rw [hnil] at hlength
      cases hlength
    · exact ⟨first, c, hconcat.trans (concat_eq_append ..)⟩
  have hends : ends (marks false (candidate w i)) = before w i ++ i.parts := by
    have htrim : ends (marks false (candidate w i)) =
        ((marks false (candidate w i)).dropWhile (· = .gap)).rdropWhile (· = .gap) := rfl
    rw [htrim, hstart, hmarks, before, hlast, IndexSlot.parts]
    have hmore := rdropWhile_append (· = Mark.gap) (l := semantic.map .letter ++
      .gap :: ((w.hex.take 8).map .letter ++ .gap :: first.map .letter)) (.letter c) rfl
      (.gap :: (marks false i.datasetKey.toList ++ .gap :: marks false i.dimensionName.toList))
    simpa using hmore
  have hne : before w i ++ i.parts ≠ [] := by
    rw [before, hlast]
    simp
  rw [reading, hends, if_neg hne]

/-- readings of names that are made of their parts -/
theorem reading_unnamed_eq_iff (w : Uuid) {i i' : IndexSlot} (h : Unnamed i) (h' : Unnamed i') :
    reading w i = reading w i' ↔ i.shortId = i'.shortId ∧ i.parts = i'.parts := by
  have hletter : Function.Injective (List.map Mark.letter) :=
    map_injective_iff.2 fun _ _ hc => Mark.letter.inj hc
  rw [reading_unnamed w h, reading_unnamed w h']
  constructor
  · intro heq
    have hlength : (before w i).length = (before w i').length := by
      simp only [before, length_append, length_cons, length_map, i.length_shortId, i'.length_shortId]
    obtain ⟨hbefore, hparts⟩ := List.append_inj heq hlength
    refine ⟨?_, hparts⟩
    rw [before, before, append_cancel_left_eq, List.cons.injEq, append_cancel_left_eq, List.cons.injEq]
      at hbefore
    exact hletter hbefore.2.2
  · rintro ⟨hid, hparts⟩
    rw [before, before, hid, hparts]

/-! ## Indexes of their own -/

omit [PyText] in
/-- refreshing an index leaves the others as they are -/
theorem resetVectorStore_other {V : Type} (db : VectorDB V) {name other : List Char} (embeddings : List V)
    (values : List String) (h : name ≠ other) : resetVectorStore db name embeddings values other = db other := by
  unfold resetVectorStore
  split_ifs
  · rw [update_of_ne h.symm]
  · rw [update_of_ne h.symm, update_of_ne h.symm]

/-- **Indexes of their own.** Two slots of a workspace have indexes with different names, so that refreshing the one
leaves what the other reads, if and only if their names read differently. Names that are made of their parts read alike
when the ids of the models begin with the same eight digits and the dataset and the dimension, joined, have the same
letters, digits and separators, apart from case and from separators at the end. -/
theorem index_names_apart_iff (w : Uuid) (i i' : IndexSlot) :
    (buildIndexName w i ≠ buildIndexName w i' ∧
        (∀ (V : Type) (db : VectorDB V) (embeddings : List V) (values : List String),
          resetVectorStore db (buildIndexName w i) embeddings values (buildIndexName w i') =
            db (buildIndexName w i')) ↔
      reading w i ≠ reading w i') ∧
    (Unnamed i → Unnamed i' → (reading w i = reading w i' ↔ i.shortId = i'.shortId ∧ i.parts = i'.parts)) := by
  refine ⟨?_, reading_unnamed_eq_iff w⟩
  rw [ne_eq, buildIndexName_eq_iff]
  constructor
  · exact And.left
  · intro hreading
    refine ⟨hreading, fun V db embeddings values => resetVectorStore_other db embeddings values ?_⟩
    exact fun hname => hreading ((buildIndexName_eq_iff w i i').1 hname)

end Names

section Ascii

open scoped Ascii

/-- thirty-two equal digits -/
def uuidOf (c : Char) (h : c.isDigit = true ∨ 'a' ≤ c ∧ c ≤ 'f') : Uuid where
  hex := List.replicate 32 c
  long := length_replicate
  digits d hd := by
    rw [eq_of_mem_replicate hd]
    exact h

/-- the dimensions `day` and `week` of `orders` -/
theorem index_names_apart_orders :
    let model : Uuid := uuidOf 'a' (by decide)
    buildIndexName model ⟨model, "orders", "day", none⟩ ≠ buildIndexName model ⟨model, "orders", "week", none⟩ := by
  intro model
  exact ((index_names_apart_iff model ⟨model, "orders", "day", none⟩ ⟨model, "orders", "week", none⟩).1.2
    (by decide)).1

/-- the dimension `day` of `orders_by` and the dimension `by_day` of `orders` -/
theorem two_dimensions_one_index :
    ¬∀ (w : Uuid) (i i' : IndexSlot), (i.datasetKey, i.dimensionName) ≠ (i'.datasetKey, i'.dimensionName) →
      buildIndexName w i ≠ buildIndexName w i' := by
  intro hclaim
  let model : Uuid := uuidOf 'a' (by decide)
  exact hclaim model ⟨model, "orders_by", "day", none⟩ ⟨model, "orders", "by_day", none⟩ (by decide) (by decide)

end Ascii

end Langbridge.Runtime.VectorIndex
