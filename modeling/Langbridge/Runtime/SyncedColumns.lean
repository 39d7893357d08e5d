/-
The columns of a synced dataset (`ConnectorSyncRuntime._replace_columns`): a sync deletes the stored columns and adds
one for each field of the table it wrote. What was said of a column (whether it is allowed, its description, its
expression) is not carried over, although the dataset's own description, tags and policy are.
-/
import Langbridge.Runtime.ApiSync
import Langbridge.Runtime.DatasetPreview

namespace Langbridge.Runtime.SyncedColumns

open Core DatasetPreview List

/-! ## Columns -/

/-- `DatasetColumnMetadata` -/
structure ColumnRecord extends DatasetColumn where
  dataType : String
  nullable : Bool
  ordinalPosition : ℕ
  description : Option String

/-- what is set of a column beyond its source -/
structure Settings where
  isAllowed : Bool
  description : Option String
  isComputed : Bool
  expression : Option String
deriving DecidableEq

def ColumnRecord.settings (c : ColumnRecord) : Settings := ⟨c.isAllowed, c.description, c.isComputed, c.expression⟩

/-- the settings that a sync gives -/
def unset : Settings := ⟨true, none, false, none⟩

/-- what a sync extracted, and how it merges it -/
structure Extracted where
  rows : List Row
  primaryKey : Option String
  mode : SyncMode

/-- the dataset's file, and the stored columns of every dataset -/
structure ColumnStore where
  file : Option ArrowTable
  columns : String → List ColumnRecord

section Sync

variable [PyText] (V : Values) (fieldType : ArrowTable → String → String)

def schemaColumns (table : ArrowTable) : List ColumnRecord :=
  table.columns.mapIdx fun ordinal name =>
    { name := name
      isAllowed := true
      isComputed := false
      expression := none
      dataType := fieldType table name
      nullable := true
      ordinalPosition := ordinal
      description := none }

def replaceColumns (columns : String → List ColumnRecord) (dataset : String) (table : ArrowTable) :
    String → List ColumnRecord :=
  Function.update columns dataset (schemaColumns fieldType table)

/-- a sync of the dataset; one that makes no table raises before it touches the columns -/
def syncColumns (dataset : String) (s : ColumnStore) (x : Extracted) : ColumnStore :=
  match materializeExisting V s.file x.rows x.primaryKey x.mode with
  | none => s
  | some table => ⟨some table, replaceColumns fieldType s.columns dataset table⟩

/-- what happens to a dataset: a sync, or its columns are stored anew with other settings -/
inductive Event where
  | sync (x : Extracted)
  | edit (columns : List ColumnRecord)

def step (dataset : String) (s : ColumnStore) : Event → ColumnStore
  | .sync x => syncColumns V fieldType dataset s x
  | .edit columns => { s with columns := Function.update s.columns dataset columns }

variable {V fieldType}

omit [PyText] in
theorem mem_schemaColumns (table : ArrowTable) (c : ColumnRecord) (h : c ∈ schemaColumns fieldType table) :
    c.settings = unset ∧ c.name ∈ table.columns := by
  obtain ⟨i, hi, rfl⟩ := mem_mapIdx.1 h
  exact ⟨rfl, getElem_mem hi⟩

omit [PyText] in
theorem exists_schemaColumn (table : ArrowTable) (name : String) (h : name ∈ table.columns) :
    ∃ c ∈ schemaColumns fieldType table, c.name = name := by
  obtain ⟨i, hi, rfl⟩ := getElem_of_mem h
  exact ⟨_, mem_mapIdx.2 ⟨i, hi, rfl⟩, rfl⟩

/-- **Settings.** After a sync no column of the dataset has settings, and its columns are those of the file. -/
theorem synced_settings (dataset : String) (s : ColumnStore) (x : Extracted) (table : ArrowTable)
    (h : materializeExisting V s.file x.rows x.primaryKey x.mode = some table) :
    (syncColumns V fieldType dataset s x).file = some table ∧
      (syncColumns V fieldType dataset s x).columns dataset = schemaColumns fieldType table := by
  unfold syncColumns
  rw [h]
  exact ⟨rfl, Function.update_self _ _ _⟩

theorem syncColumns_none (dataset : String) (s : ColumnStore) (x : Extracted)
    (h : materializeExisting V s.file x.rows x.primaryKey x.mode = none) :
    syncColumns V fieldType dataset s x = s := by
  unfold syncColumns
  rw [h]

end Sync

/-! ## Readable columns -/

/-- a preview reads a column: it selects everything, or mentions it -/
def Reads (p : Preview) (name : String) : Prop := p.hasStar = true ∨ name ∈ p.names

section Previews

variable [PyText] (dumps : Json → String) (parse : String → String → Except ParseFailure SqlTree)

def previewOf (tableKey dialect : String) (columns : List ColumnRecord) (policy : DatasetPolicy)
    (request : PreviewRequest) : Except PreviewError Preview :=
  buildPreviewSql dumps parse tableKey dialect (columns.map ColumnRecord.toDatasetColumn) policy request

variable {dumps parse} {fieldType : ArrowTable → String → String}

end Previews

/-! ## Histories -/

section Histories

variable [PyText] (V : Values) (fieldType : ArrowTable → String → String) (dumps : Json → String)
  (parse : String → String → Except ParseFailure SqlTree) (dataset : String)

/-- the source has the column after a sync -/
def Occurs (s : ColumnStore) (name : String) : Prop := ∃ table, s.file = some table ∧ name ∈ table.columns

/-- a step keeps the settings of the columns that still occur, and makes no column readable that was not allowed -/
structure Keeps (s s' : ColumnStore) : Prop where
  settings : ∀ c ∈ s.columns dataset, Occurs s' c.name →
    ∃ d ∈ s'.columns dataset, d.name = c.name ∧ d.settings = c.settings
  hidden : ∀ c ∈ s.columns dataset, c.isAllowed = false → Occurs s' c.name →
    ∀ tableKey dialect policy request p p',
      previewOf dumps parse tableKey dialect (s.columns dataset) policy request = .ok p →
      previewOf dumps parse tableKey dialect (s'.columns dataset) policy request = .ok p' →
      Reads p' c.name → Reads p c.name

/-- each sync of a history keeps the settings it finds -/
def KeepsAlong (s : ColumnStore) : List Event → Prop
  | [] => True
  | e :: es => (∀ x, e = .sync x → Keeps dumps parse dataset s (step V fieldType dataset s e)) ∧
      KeepsAlong (step V fieldType dataset s e) es

def FindsNone (s : ColumnStore) (x : Extracted) : Prop :=
  ∀ table, materializeExisting V s.file x.rows x.primaryKey x.mode = some table →
    ∀ c ∈ s.columns dataset, c.name ∈ table.columns → c.settings = unset

/-- no sync of a history finds settings on a column that its table has -/
def FindsNoneAlong (s : ColumnStore) : List Event → Prop
  | [] => True
  | e :: es => (∀ x, e = .sync x → FindsNone V dataset s x) ∧ FindsNoneAlong (step V fieldType dataset s e) es

variable {V fieldType dumps parse dataset}

theorem keeps_iff (s : ColumnStore) (x : Extracted) :
    Keeps dumps parse dataset s (syncColumns V fieldType dataset s x) ↔ FindsNone V dataset s x := by
  cases hmade : materializeExisting V s.file x.rows x.primaryKey x.mode with
  | none =>
    rw [syncColumns_none dataset s x hmade]
    refine iff_of_true ⟨fun c hc _ => ⟨c, hc, rfl, rfl⟩, fun c _ _ _ _ _ _ _ p p' hp hp' hreads => ?_⟩ ?_
    · rw [hp] at hp'
      rwa [Except.ok.inj hp']
    · intro table htable
      rw [hmade] at htable
      cases htable
  | some table =>
    obtain ⟨hfile, hcolumns⟩ := synced_settings dataset s x table hmade
    have hoccurs : ∀ name, Occurs (syncColumns V fieldType dataset s x) name ↔ name ∈ table.columns := by
      intro name
      rw [Occurs, hfile]
      exact ⟨fun ⟨t, ht, h⟩ => by rwa [Option.some.inj ht], fun h => ⟨table, rfl, h⟩⟩
    constructor
    · intro hkeeps t ht c hc hname
      rw [hmade] at ht
      cases ht
      obtain ⟨d, hd, _, hsame⟩ := hkeeps.settings c hc ((hoccurs _).2 hname)
      rw [hcolumns] at hd
      rw [← hsame]
      exact (mem_schemaColumns _ d hd).1
    · intro hnone
      have hplain : ∀ c ∈ s.columns dataset, Occurs (syncColumns V fieldType dataset s x) c.name →
          c.settings = unset := fun c hc ho => hnone table hmade c hc ((hoccurs _).1 ho)
      refine ⟨fun c hc ho => ?_, fun c hc hhidden ho => ?_⟩
      · obtain ⟨d, hd, hname⟩ := exists_schemaColumn table c.name ((hoccurs _).1 ho)
        rw [hcolumns]
        exact ⟨d, hd, hname, (mem_schemaColumns _ d hd).1.trans (hplain c hc ho).symm⟩
      · have hallowed : c.isAllowed = true := congrArg Settings.isAllowed (hplain c hc ho)
        rw [hhidden] at hallowed
        cases hallowed

/-- **Histories.** Along a history of syncs and edits, every sync keeps the settings of the columns that still occur and
makes no hidden column readable, if and only if none finds settings on a column that its table has. -/
theorem keepsAlong_iff (s : ColumnStore) (events : List Event) :
    KeepsAlong V fieldType dumps parse dataset s events ↔ FindsNoneAlong V fieldType dataset s events := by
  induction events generalizing s with
  | nil => exact Iff.rfl
  | cons e es ih =>
    rw [KeepsAlong, FindsNoneAlong, ih]
    refine and_congr_left fun _ => forall_congr' fun x => forall_congr' fun hx => ?_
    rw [hx]
    exact keeps_iff s x

end Histories

/-! ## A hidden column -/

section Hidden

open scoped Ascii

/-- the people of a source, their national number among them -/
def people : Extracted := ⟨[(Dict.empty.set "name" (.str "Ada")).set "ssn" (.str "078-05-1120")], none, .fullRefresh⟩

def peopleColumns : List ColumnRecord :=
  [⟨⟨"name", true, false, none⟩, "string", true, 0, none⟩, ⟨⟨"ssn", false, false, none⟩, "string", true, 1, none⟩]

def peopleStore : ColumnStore := ⟨none, fun _ => peopleColumns⟩

/-- the number is not allowed, and a sync allows it -/
theorem hidden_made_allowed : ¬ KeepsAlong plainValues (fun _ _ => "string") (fun _ => "")
    (fun _ _ => .error (.parseError "")) "people" peopleStore [.sync people] := by
  intro h
  have hmade : ∃ table, materializeExisting plainValues peopleStore.file people.rows people.primaryKey people.mode =
      some table ∧ table.columns = ["name", "ssn"] := ⟨_, rfl, by decide +kernel⟩
  obtain ⟨table, htable, hcolumns⟩ := hmade
  have hnone := (keeps_iff peopleStore people).1 (h.1 people rfl) table htable
    ⟨⟨"ssn", false, false, none⟩, "string", true, 1, none⟩ (mem_cons_of_mem _ mem_cons_self)
    (by rw [hcolumns]; exact mem_cons_of_mem _ mem_cons_self)
  cases congrArg Settings.isAllowed hnone

end Hidden

end Langbridge.Runtime.SyncedColumns
