/-
Writing and reading the artifacts of stages (`federation/executor/artifact_store.py`), where any write may be cut off
between two file operations. A file that is being written is `torn`: `pq.write_table` and `write_text` create their file
before they have filled it.

`write_stage_output` takes any file under the content hash of its table for that table, also one whose writing was cut
off.
-/
import Langbridge.Core.CrashDisk
import Langbridge.Federation.ArtifactPaths

namespace Langbridge.Federation.Artifacts

open Core Core.Disk List Function

/-! ## The paths of artifacts -/

variable (base : PosixPath)

def isHex (c : Char) : Bool := c.isDigit || 'a' ≤ c && c ≤ 'f'

/-- the text of a hexadecimal digest -/
def IsHex (h : String) : Prop := h.toList.all isHex = true

def artifactKeyOf (workspaceId contentHash : String) : String :=
  workspaceId ++ "/artifacts/" ++ contentHash ++ ".parquet"

theorem safeChars_cons {c : Char} (h : c ≠ '.' ∧ c ≠ '/' ∧ c ≠ '\\') (cs : List Char) :
    safeChars (c :: cs) = c :: safeChars cs := by
  rw [safeChars.eq_2 _ _ fun _ hdot => absurd hdot h.1, if_neg (not_or.2 h.2)]

theorem safeChars_append {cs : List Char} (h : ∀ c ∈ cs, c ≠ '.' ∧ c ≠ '/' ∧ c ≠ '\\') (rest : List Char) :
    safeChars (cs ++ rest) = cs ++ safeChars rest := by
  induction cs with
  | nil => rfl
  | cons c cs ih =>
    rw [cons_append, safeChars_cons (h c mem_cons_self), ih fun c' hc' => h c' (mem_cons_of_mem _ hc')]
    rfl

theorem plain_of_isHex {c : Char} (h : isHex c = true) : c ≠ '.' ∧ c ≠ '/' ∧ c ≠ '\\' := by
  refine ⟨?_, ?_, ?_⟩ <;> (rintro rfl; revert h; decide)

variable {h : String}

/-- the file of an artifact, below the directory of its workspace -/
theorem artifactPath_key (w : String) (hh : IsHex h) : artifactPath base (artifactKeyOf w h) =
      ⟨base.absolute, base.parts ++ ((keyNames w).map safeSegment ++ ["artifacts", h ++ ".parquet"])⟩ := by
  have hplain : ∀ c ∈ h.toList, c ≠ '.' ∧ c ≠ '/' ∧ c ≠ '\\' := fun c hc => plain_of_isHex (all_eq_true.1 hh c hc)
  have hslash : '/' ∉ (h ++ ".parquet").toList := by
    rw [String.toList_append, mem_append, not_or]
    exact ⟨fun hmem => (hplain _ hmem).2.1 rfl, by decide⟩
  have hsegments : keySegments (artifactKeyOf w h) = keySegments w ++ ["artifacts", h ++ ".parquet"] := by
    have htext : (artifactKeyOf w h).toList =
        w.toList ++ '/' :: ("artifacts".toList ++ '/' :: (h ++ ".parquet").toList) := by
      simp [artifactKeyOf, String.toList_append]
    rw [keySegments, htext, splitOn_append_cons_self, splitOn_append_cons_self,
      splitOn_eq_singleton hslash, map_append]
    rw [map_append, map_singleton, String.ofList_toList]
    rfl
  have hlong : 8 ≤ (h ++ ".parquet").toList.length := by
    rw [String.toList_append, length_append]
    exact Nat.le_add_left 8 _
  have hkept : PosixPath.kept ["artifacts", h ++ ".parquet"] = ["artifacts", h ++ ".parquet"] := by
    apply filter_eq_self.2
    intro s hs
    rw [decide_eq_true_eq]
    rcases mem_pair.1 hs with rfl | rfl
    · decide
    · constructor
      · intro hempty
        rw [hempty] at hlong
        exact absurd hlong (by decide)
      · intro hdot
        rw [hdot] at hlong
        exact absurd hlong (by decide)
  have hsafe : safeSegment (h ++ ".parquet") = h ++ ".parquet" := by
    rw [safeSegment, String.toList_append, safeChars_append hplain, ← String.toList_inj, String.toList_ofList,
      String.toList_append]
    rfl
  rw [artifactPath_eq, keyNames, hsegments, PosixPath.kept_append, hkept, map_append, keyNames]
  simp only [map_cons, map_nil, hsafe]
  rfl

/-- artifacts of one file have one content hash -/
theorem hash_of_artifactPath {w w' h h' : String} (hh : IsHex h) (hh' : IsHex h')
    (heq : artifactPath base (artifactKeyOf w h) = artifactPath base (artifactKeyOf w' h')) : h = h' := by
  rw [artifactPath_key base w hh, artifactPath_key base w' hh', PosixPath.append_inj] at heq
  obtain ⟨-, hlast⟩ := append_inj' heq rfl
  obtain ⟨-, hfile⟩ := List.cons.inj hlast
  have hname := (List.cons.inj hfile).1
  rw [← String.toList_inj, String.toList_append, String.toList_append, append_cancel_right_eq] at hname
  exact String.toList_inj.1 hname

theorem manifestPath_ne_artifactPath (t : StageSlot) (w : String) (hh : IsHex h) :
    manifestPath base t ≠ artifactPath base (artifactKeyOf w h) := by
  intro heq
  rw [manifestPath_eq, artifactPath_key base w hh, PosixPath.append_inj, jsonNames] at heq
  have hlast := congrArg List.getLast? heq
  have hpair : ["artifacts", h ++ ".parquet"] = ["artifacts"] ++ [h ++ ".parquet"] := rfl
  rw [hpair, ← append_assoc, getLast?_append, getLast?_append, getLast?_singleton,
    getLast?_singleton] at hlast
  have hname := congrArg (fun s => s.toList.getLast?) (Option.some.inj hlast)
  exact absurd hname (by simp)

/-- the directory of an artifact does not take its place -/
theorem isAbove_parent (w : String) (hh : IsHex h) :
    (artifactPath base (artifactKeyOf w h)).isAbove (artifactPath base (artifactKeyOf w h)).parent = false := by
  rw [← Bool.not_eq_true, isAbove_iff, artifactPath_key base w hh]
  rintro ⟨-, hprefix⟩
  have hlength := hprefix.length_le
  simp only [PosixPath.parent, length_dropLast, length_append, length_cons] at hlength
  omega
/-! ## The store -/

section Store

variable [PyText]

structure StageArtifact where
  stageId : String
  artifactKey : String
  rows : ℕ
  bytesWritten : ℕ
  contentHash : String

structure StageArtifactManifest where
  artifact : StageArtifact
  cache : Option StageCacheDescriptor

/-- what a file holds -/
inductive Content (T : Type) where
  | torn
  | parquet (table : T)
  | json (m : StageArtifactManifest)

/-- `sha256(...).hexdigest()` of a table, its number of rows, and the size of a file or directory -/
structure TableFormat (T : Type) where
  contentHash : T → String
  numRows : T → ℕ
  size : Node (Content T) → ℕ
  hex : ∀ t, IsHex (contentHash t)

variable {T : Type} (fmt : TableFormat T)

/-- the arguments of `write_stage_output` -/
structure WriteCall (T : Type) where
  slot : StageSlot
  table : T
  cache : Option StageCacheDescriptor

def WriteCall.artifactPath (c : WriteCall T) : PosixPath :=
  Artifacts.artifactPath base (artifactKeyOf c.slot.workspaceId (fmt.contentHash c.table))

/-- `if not artifact_path.exists(): pq.write_table(table, artifact_path)` -/
def writeUnlessThere (artifactPath : PosixPath) (table : T) : Disk (Content T) Unit := do
  match ← look artifactPath with
  | some _ => pure ()
  | none => do
    op (.put artifactPath .torn)
    op (.put artifactPath (.parquet table))

def writeStageOutput (c : WriteCall T) : Disk (Content T) StageArtifact := do
  let contentHash := fmt.contentHash c.table
  let artifactKey := artifactKeyOf c.slot.workspaceId contentHash
  let artifactPath := Artifacts.artifactPath base artifactKey
  op (.mkdir artifactPath.parent)
  writeUnlessThere artifactPath c.table
  let stat ← look artifactPath
  let artifact : StageArtifact :=
    { stageId := c.slot.stageId
      artifactKey := artifactKey
      rows := fmt.numRows c.table
      bytesWritten := stat.elim 0 fmt.size
      contentHash := contentHash }
  let manifestPath := manifestPath base c.slot
  op (.mkdir manifestPath.parent)
  op (.put manifestPath .torn)
  op (.put manifestPath (.json ⟨artifact, c.cache⟩))
  pure artifact

/-- `get_stage_output_manifest`; an error where the file is not the whole text of a manifest -/
def getStageOutputManifest (files : Files (Content T)) (t : StageSlot) : Except Unit (Option StageArtifactManifest) :=
  match files (manifestPath base t) with
  | none => .ok none
  | some (.file (.json m)) =>
    if (files (artifactPath base m.artifact.artifactKey)).isSome then .ok (some m) else .ok none
  | some _ => .error ()

/-- `read_artifact`; nothing where the file is not the whole parquet file of a table -/
def readArtifact (files : Files (Content T)) (artifactKey : String) : Option T :=
  match files (artifactPath base artifactKey) with
  | some (.file (.parquet t)) => some t
  | _ => none

def getCachedStageOutput (files : Files (Content T)) (t : StageSlot) (expected : Option StageCacheDescriptor) :
    Except Unit (Option StageArtifact) := do
  match ← getStageOutputManifest base files t with
  | none => pure none
  | some m =>
    match expected with
    | none => pure (some m.artifact)
    | some e =>
      if !e.cacheable || isBlank e.cacheKey then pure none
      else
        match m.cache with
        | none => pure none
        | some c =>
          if !c.cacheable || isBlank c.cacheKey then pure none
          else if c.cacheKey ≠ e.cacheKey then pure none
          else pure (some m.artifact)

/-- a call of the store: a write with the number of file operations it makes at most, or a read -/
inductive Call (T : Type) where
  | write (c : WriteCall T) (n : ℕ)
  | get (t : StageSlot) (expected : Option StageCacheDescriptor)

def Call.tables : Call T → List T
  | .write c _ => [c.table]
  | .get _ _ => []

def Call.execute (files : Files (Content T)) : Call T → Files (Content T)
  | .write c n => (writeStageOutput base fmt c n files).2.2
  | .get _ _ => files

def execute (files : Files (Content T)) (calls : List (Call T)) : Files (Content T) :=
  calls.foldl (Call.execute base fmt) files

/-- a store in which nothing has been written -/
def emptyStore : Files (Content T) := fun p => if p.isAbove base then some .dir else none

/-! ## What calls keep -/

variable {base fmt}

def Distinct (fmt : TableFormat T) (passed : List T) : Prop :=
  ∀ t ∈ passed, ∀ t' ∈ passed, fmt.contentHash t = fmt.contentHash t' → t = t'

/-- every artifact is one of the tables passed to the store, whole, and every manifest has its artifact -/
structure Inv (base : PosixPath) (fmt : TableFormat T) (passed : List T) (files : Files (Content T)) : Prop where
  whole : ∀ w h, IsHex h → ∀ c, files (artifactPath base (artifactKeyOf w h)) = some (.file c) →
    ∃ t ∈ passed, c = .parquet t ∧ fmt.contentHash t = h
  served : ∀ t m, files (manifestPath base t) = some (.file (.json m)) →
    ∃ w h table, IsHex h ∧ m.artifact.artifactKey = artifactKeyOf w h ∧ m.artifact.contentHash = h ∧
      files (artifactPath base (artifactKeyOf w h)) = some (.file (.parquet table))

variable {passed : List T} {files files' : Files (Content T)}

theorem inv_emptyStore : Inv base fmt passed (emptyStore base : Files (Content T)) where
  whole w h hh c hfile := by
    unfold emptyStore at hfile
    split_ifs at hfile
    cases hfile
  served t m hfile := by
    unfold emptyStore at hfile
    split_ifs at hfile
    cases hfile

/-- a directory is made -/
theorem Inv.mkdir (h : Inv base fmt passed files) {p : PosixPath} (hp : (FileOp.mkdir p).apply files = some files') :
    Inv base fmt passed files' where
  whole w hash hh c hfile := h.whole w hash hh c ((mkdir_file hp).1 hfile)
  served t m hfile := by
    obtain ⟨w, hash, table, hh, hkey, hhash, hartifact⟩ := h.served t m ((mkdir_file hp).1 hfile)
    exact ⟨w, hash, table, hh, hkey, hhash, (mkdir_file hp).2 hartifact⟩

variable {c : WriteCall T}

/-- an artifact is written to a place where there was none -/
theorem Inv.putArtifact (h : Inv base fmt passed files) (hc : c.table ∈ passed) (hnone : files (c.artifactPath base fmt) = none) :
    Inv base fmt passed (Function.update files (c.artifactPath base fmt) (some (.file (.parquet c.table)))) where
  whole w hash hh content hfile := by
    by_cases hp : artifactPath base (artifactKeyOf w hash) = c.artifactPath base fmt
    · rw [hp, update_self] at hfile
      cases hfile
      exact ⟨c.table, hc, rfl, hash_of_artifactPath base (fmt.hex _) hh hp.symm⟩
    · rw [update_of_ne hp] at hfile
      exact h.whole w hash hh content hfile
  served t m hfile := by
    have hmanifest : manifestPath base t ≠ c.artifactPath base fmt := manifestPath_ne_artifactPath base t _ (fmt.hex _)
    rw [update_of_ne hmanifest] at hfile
    obtain ⟨w, hash, table, hh, hkey, hhash, hartifact⟩ := h.served t m hfile
    refine ⟨w, hash, table, hh, hkey, hhash, ?_⟩
    rw [update_of_ne]
    · exact hartifact
    · intro hp
      rw [hp, hnone] at hartifact
      cases hartifact

/-- a manifest is written: a part of it, or the whole of it when its artifact is there -/
theorem Inv.putManifest (h : Inv base fmt passed files) (t : StageSlot) (content : Content T)
    (hcontent : ∀ m, content = .json m → ∃ w h table, IsHex h ∧ m.artifact.artifactKey = artifactKeyOf w h ∧
      m.artifact.contentHash = h ∧ files (artifactPath base (artifactKeyOf w h)) = some (.file (.parquet table))) :
    Inv base fmt passed (Function.update files (manifestPath base t) (some (.file content))) where
  whole w hash hh c hfile := by
    rw [update_of_ne (manifestPath_ne_artifactPath base t w hh).symm] at hfile
    exact h.whole w hash hh c hfile
  served t' m hfile := by
    have hsame : ∃ w h table, IsHex h ∧ m.artifact.artifactKey = artifactKeyOf w h ∧ m.artifact.contentHash = h ∧
        files (artifactPath base (artifactKeyOf w h)) = some (.file (.parquet table)) := by
      by_cases hp : manifestPath base t' = manifestPath base t
      · rw [hp, update_self] at hfile
        cases hfile
        exact hcontent m rfl
      · rw [update_of_ne hp] at hfile
        exact h.served t' m hfile
    obtain ⟨w, hash, table, hh, hkey, hhash, hartifact⟩ := hsame
    refine ⟨w, hash, table, hh, hkey, hhash, ?_⟩
    rw [update_of_ne (manifestPath_ne_artifactPath base t w hh).symm]
    exact hartifact

def Written (base : PosixPath) (fmt : TableFormat T) (c : WriteCall T) (files : Files (Content T)) : Prop :=
  files (c.artifactPath base fmt) = some (.file (.parquet c.table))

def ReadsBack (base : PosixPath) (c : WriteCall T) (files : Files (Content T)) : Prop :=
  ∃ m, getStageOutputManifest base files c.slot = .ok (some m) ∧
    readArtifact base files m.artifact.artifactKey = some c.table

/-- a call that is not cut off while its parquet file is written, and finds no directory in its place -/
def Careful (base : PosixPath) (fmt : TableFormat T) (c : WriteCall T) (n : ℕ) (files : Files (Content T)) : Prop :=
  files (c.artifactPath base fmt) ≠ some .dir ∧ (files (c.artifactPath base fmt) = none → n ≠ 2)

/-- the artifact is there after `writeUnlessThere`, unless that is cut off in the middle -/
theorem writeUnlessThere_spec (hdistinct : Distinct fmt passed) (hc : c.table ∈ passed) :
    Triple (fun n files => Inv base fmt passed files ∧ files (c.artifactPath base fmt) ≠ some .dir ∧
        (files (c.artifactPath base fmt) = none → n ≠ 1))
      (writeUnlessThere (c.artifactPath base fmt) c.table) (Inv base fmt passed)
      (fun _ _ files => Inv base fmt passed files ∧ Written base fmt c files) := by
  apply Triple.bind
  · exact Triple.look (Q := fun node n files => node = files (c.artifactPath base fmt) ∧ Inv base fmt passed files ∧
      files (c.artifactPath base fmt) ≠ some .dir ∧ (files (c.artifactPath base fmt) = none → n ≠ 1))
      fun n files h => ⟨rfl, h⟩
  · intro node
    cases node with
    | some node =>
      rintro n files ⟨hnode, hinv, hdir, -⟩
      refine ⟨hinv, ?_⟩
      cases node with
      | dir => exact absurd hnode.symm hdir
      | file content =>
        obtain ⟨t, ht, rfl, hhash⟩ := hinv.whole _ _ (fmt.hex c.table) content hnode.symm
        rw [Written, ← hdistinct t ht c.table hc hhash]
        exact hnode.symm
    | none =>
      -- the file that is being written has all of the store around it whole
      apply Triple.bind (R := fun _ n files' => n ≠ 0 ∧ ∃ files, Inv base fmt passed files ∧
        files (c.artifactPath base fmt) = none ∧
        files' = Function.update files (c.artifactPath base fmt) (some (.file .torn)))
      · apply Triple.op
        · exact fun files h => h.2.1
        · exact fun n files h _ => h.2.1
        · rintro n files files' ⟨hnode, hinv, -, hn⟩ hput
          exact ⟨fun hzero => hn hnode.symm (by rw [hzero]), files, hinv, hnode.symm, put_eq hput⟩
      · intro _
        apply Triple.op
        · exact fun files h => absurd rfl h.1
        · rintro n files' ⟨-, files, -, -, rfl⟩ hput
          rw [FileOp.apply, update_self] at hput
          cases hput
        · rintro n files' files'' ⟨-, files, hinv, hnone, rfl⟩ hput
          have hwritten := put_eq hput
          rw [update_idem] at hwritten
          rw [hwritten]
          exact ⟨hinv.putArtifact hc hnone, update_self ..⟩

theorem Written.put {content : Content T} (h : Written base fmt c files) :
    Written base fmt c (Function.update files (manifestPath base c.slot) (some (.file content))) := by
  have hne : c.artifactPath base fmt ≠ manifestPath base c.slot :=
    (manifestPath_ne_artifactPath base c.slot _ (fmt.hex _)).symm
  rw [Written, update_of_ne hne]
  exact h

theorem Written.readsBack (h : Written base fmt c files) (m : StageArtifactManifest)
    (hkey : m.artifact.artifactKey = artifactKeyOf c.slot.workspaceId (fmt.contentHash c.table)) :
    ReadsBack base c (Function.update files (manifestPath base c.slot) (some (.file (.json m)))) := by
  have hfile : Written base fmt c (Function.update files (manifestPath base c.slot) (some (.file (.json m)))) := h.put
  change Function.update files _ _ (artifactPath base _) = _ at hfile
  rw [← hkey] at hfile
  refine ⟨m, ?_, ?_⟩
  · rw [getStageOutputManifest, update_self]
    exact if_pos (by rw [hfile]; rfl)
  · rw [readArtifact, hfile]

/-- **One call of `write_stage_output`** keeps the store whole, and what it leaves reads back. -/
theorem writeStageOutput_spec (hdistinct : Distinct fmt passed) (hc : c.table ∈ passed) :
    Triple (fun n files => Inv base fmt passed files ∧ Careful base fmt c n files) (writeStageOutput base fmt c)
      (Inv base fmt passed) (fun _ _ files => Inv base fmt passed files ∧ ReadsBack base c files) := by
  have hplace : (c.artifactPath base fmt).isAbove (c.artifactPath base fmt).parent = false :=
    isAbove_parent base _ (fmt.hex _)
  have hkeep : ∀ {p : PosixPath} {files files' : Files (Content T)}, (FileOp.mkdir p).apply files = some files' →
      Written base fmt c files → Written base fmt c files' := fun hp hwritten => (mkdir_file hp).2 hwritten
  let whole : ℕ → Files (Content T) → Prop := fun _ files => Inv base fmt passed files ∧ Written base fmt c files
  apply Triple.bind (R := fun _ n files => Inv base fmt passed files ∧ files (c.artifactPath base fmt) ≠ some .dir ∧
    (files (c.artifactPath base fmt) = none → n ≠ 1))
  · apply Triple.op
    · exact fun files h => h.1
    · exact fun n files h _ => h.1
    · rintro n files files' ⟨hinv, hdir, hn⟩ hp
      have hsame := mkdir_other hp hplace
      refine ⟨hinv.mkdir hp, by rw [hsame]; exact hdir, fun hnone hone => ?_⟩
      rw [hsame] at hnone
      exact hn hnone (by rw [hone])
  intro _
  apply Triple.bind (R := fun _ => whole) (writeUnlessThere_spec hdistinct hc)
  intro _
  apply Triple.bind (R := fun _ => whole) (Triple.look fun n files h => h)
  intro stat
  apply Triple.bind (R := fun _ => whole)
  · apply Triple.op
    · exact fun files h => h.1
    · exact fun n files h _ => h.1
    · exact fun n files files' h hp => ⟨h.1.mkdir hp, hkeep hp h.2⟩
  intro _
  apply Triple.bind (R := fun _ => whole)
  · apply Triple.op
    · exact fun files h => h.1
    · exact fun n files h _ => h.1
    · intro n files files' h hp
      rw [put_eq hp]
      refine ⟨h.1.putManifest c.slot .torn fun m hm => ?_, h.2.put⟩
      cases hm
  intro _
  apply Triple.bind (R := fun _ _ files => Inv base fmt passed files ∧ ReadsBack base c files)
  · apply Triple.op
    · exact fun files h => h.1
    · exact fun n files h _ => h.1
    · intro n files files' h hp
      rw [put_eq hp]
      refine ⟨h.1.putManifest c.slot _ fun m hm => ?_, h.2.readsBack _ rfl⟩
      cases hm
      exact ⟨_, _, c.table, fmt.hex _, rfl, rfl, h.2⟩
  intro _
  exact Triple.pure fun n files h => h

/-! ## Runs -/

def CarefulRun (base : PosixPath) (fmt : TableFormat T) (files : Files (Content T)) : List (Call T) → Prop
  | [] => True
  | .write c n :: calls => Careful base fmt c n files ∧ CarefulRun base fmt (Call.execute base fmt files (.write c n)) calls
  | .get _ _ :: calls => CarefulRun base fmt files calls

/-- what a careful call that is cut off or returns leaves -/
theorem Inv.write (h : Inv base fmt passed files) (hdistinct : Distinct fmt passed)
    (hc : c.table ∈ passed) {n : ℕ} (hcareful : Careful base fmt c n files) :
    Inv base fmt passed (Call.execute base fmt files (.write c n)) ∧
      ∀ a, (writeStageOutput base fmt c n files).1 = .ok a →
        ReadsBack base c (Call.execute base fmt files (.write c n)) := by
  have hspec := writeStageOutput_spec hdistinct hc n files ⟨h, hcareful⟩
  rw [Call.execute]
  revert hspec
  match writeStageOutput base fmt c n files with
  | (.ok a, n', files') => exact fun hspec => ⟨hspec.1, fun _ _ => hspec.2⟩
  | (.error e, n', files') => exact fun hspec => ⟨hspec, fun _ herror => by cases herror⟩

theorem Inv.run (h : Inv base fmt passed files) (hdistinct : Distinct fmt passed) {calls : List (Call T)}
    (hpassed : ∀ t ∈ calls.flatMap Call.tables, t ∈ passed) (hcareful : CarefulRun base fmt files calls) :
    Inv base fmt passed (execute base fmt files calls) := by
  induction calls generalizing files with
  | nil => exact h
  | cons call calls ih =>
    have hrest : ∀ t ∈ calls.flatMap Call.tables, t ∈ passed := by
      intro t ht
      exact hpassed t (mem_append_right _ ht)
    cases call with
    | write c n =>
      have hc : c.table ∈ passed := hpassed _ (mem_append_left _ mem_cons_self)
      exact ih (h.write hdistinct hc hcareful.1).1 hrest hcareful.2
    | get t expected => exact ih h hrest hcareful

theorem carefulRun_append {calls later : List (Call T)} :
    CarefulRun base fmt files (calls ++ later) ↔
      CarefulRun base fmt files calls ∧ CarefulRun base fmt (execute base fmt files calls) later := by
  induction calls generalizing files with
  | nil => exact (and_iff_right trivial).symm
  | cons call calls ih =>
    cases call with
    | write c n =>
      rw [cons_append, CarefulRun, CarefulRun, ih, and_assoc]
      rfl
    | get t expected => exact ih

variable {t : StageSlot}

theorem manifest_there {m : StageArtifactManifest}
    (h : getStageOutputManifest base files t = .ok (some m)) : files (manifestPath base t) = some (.file (.json m)) := by
  unfold getStageOutputManifest at h
  split at h
  · cases h
  · rename_i m' hfile
    split_ifs at h
    · cases h
      exact hfile
    · cases h
  · cases h

theorem manifest_of_cached {expected : Option StageCacheDescriptor} {a : StageArtifact}
    (h : getCachedStageOutput base files t expected = .ok (some a)) :
    ∃ m, getStageOutputManifest base files t = .ok (some m) ∧ m.artifact = a := by
  obtain ⟨found, hfound, hrest⟩ := of_bind_ok h
  cases found with
  | none => cases hrest
  | some m =>
    refine ⟨m, hfound, ?_⟩
    cases expected with
    | none =>
      cases hrest
      rfl
    | some e =>
      dsimp only at hrest
      split_ifs at hrest
      · cases hrest
      · split at hrest
        · cases hrest
        · split_ifs at hrest <;> cases hrest
          rfl

/-- what is served is an artifact that is there -/
theorem Inv.getCached (h : Inv base fmt passed files) {expected : Option StageCacheDescriptor}
    {a : StageArtifact} (hget : getCachedStageOutput base files t expected = .ok (some a)) :
    ∃ table ∈ passed, readArtifact base files a.artifactKey = some table ∧ fmt.contentHash table = a.contentHash := by
  obtain ⟨m, hmanifest, rfl⟩ := manifest_of_cached hget
  obtain ⟨w, hash, table, hh, hkey, hhash, hartifact⟩ := h.served t m (manifest_there hmanifest)
  obtain ⟨table', hpassed, heq, hsame⟩ := h.whole w hash hh _ hartifact
  cases heq
  refine ⟨table, hpassed, ?_, hsame.trans hhash.symm⟩
  rw [hkey, readArtifact, hartifact]

/-- **The store reads back.** In a run from an empty store in which no write is cut off while its parquet file is
written, none finds a directory in the place of its artifact, and no two tables have one content hash: a write that
returns leaves a manifest whose artifact reads back as its table, and an artifact that is served reads back as a table
with its content hash. -/
theorem store_reads_back (base : PosixPath) (fmt : TableFormat T) (calls : List (Call T))
    (hcareful : CarefulRun base fmt (emptyStore base) calls) (hdistinct : Distinct fmt (calls.flatMap Call.tables)) :
    (∀ before c n after a, calls = before ++ .write c n :: after →
      (writeStageOutput base fmt c n (execute base fmt (emptyStore base) before)).1 = .ok a →
        ReadsBack base c (execute base fmt (emptyStore base) (before ++ [.write c n]))) ∧
    ∀ before after t expected a, calls = before ++ after →
      getCachedStageOutput base (execute base fmt (emptyStore base) before) t expected = .ok (some a) →
        ∃ table ∈ calls.flatMap Call.tables,
          readArtifact base (execute base fmt (emptyStore base) before) a.artifactKey = some table ∧
            fmt.contentHash table = a.contentHash := by
  have hinv : ∀ before after, calls = before ++ after →
      Inv base fmt (calls.flatMap Call.tables) (execute base fmt (emptyStore base) before) := by
    intro before after hsplit
    have hfirst := hcareful
    rw [hsplit, carefulRun_append] at hfirst
    refine inv_emptyStore.run hdistinct (fun t ht => ?_) hfirst.1
    rw [hsplit, flatMap_append]
    exact mem_append_left _ ht
  constructor
  · intro before c n after a hsplit hreturned
    have hlater := hcareful
    rw [hsplit, carefulRun_append] at hlater
    have hc : c.table ∈ calls.flatMap Call.tables := by
      rw [hsplit, flatMap_append]
      exact mem_append_right _ (mem_append_left _ mem_cons_self)
    have hread := ((hinv before _ hsplit).write hdistinct hc hlater.2.1).2 a hreturned
    rw [execute, foldl_append]
    exact hread
  · intro before after t expected a hsplit hget
    exact (hinv before after hsplit).getCached hget

end Store

/-! ## A store of two tables -/

section Stay

variable [PyText] {T : Type} {base : PosixPath} {fmt : TableFormat T} {files : Files (Content T)} {h : String}

/-! ## Artifacts that stay -/

/-- an operation that keeps a property of the files -/
theorem keeps_op {keeps : Files (Content T) → Prop} {o : FileOp (Content T)}
    (h : ∀ files files', keeps files → o.apply files = some files' → keeps files') :
    Triple (fun _ => keeps) (op o) keeps fun _ _ => keeps :=
  .op (fun _ hkeeps => hkeeps) (fun _ _ hkeeps _ => hkeeps) fun _ _ _ hkeeps hdone => h _ _ hkeeps hdone

/-- the file of an artifact is not written again -/
theorem writeStageOutput_keeps (fmt : TableFormat T) (hh : IsHex h) (w : String) (content : Content T) (c : WriteCall T) :
    Triple (fun _ files => files (artifactPath base (artifactKeyOf w h)) = some (.file content))
      (writeStageOutput base fmt c) (fun files => files (artifactPath base (artifactKeyOf w h)) = some (.file content))
      fun _ _ files => files (artifactPath base (artifactKeyOf w h)) = some (.file content) := by
  set keeps : Files (Content T) → Prop := fun files => files (artifactPath base (artifactKeyOf w h)) = some (.file content)
  have hmkdir : ∀ p, Triple (fun _ => keeps) (op (.mkdir p)) keeps fun _ _ => keeps :=
    fun p => keeps_op fun _ _ hkeeps hp => (mkdir_file hp).2 hkeeps
  have hput : ∀ p content', artifactPath base (artifactKeyOf w h) ≠ p →
      Triple (fun _ => keeps) (op (.put p content')) keeps fun _ _ => keeps := by
    intro p content' hne
    refine keeps_op fun files files' hkeeps hp => ?_
    rw [put_eq hp]
    exact (update_of_ne hne _ _).trans hkeeps
  have hmanifest := fun content' => hput _ content' (manifestPath_ne_artifactPath base c.slot w hh).symm
  refine .bind (hmkdir _) fun _ => .bind ?_ fun _ => .bind (R := fun _ _ => keeps) (.look fun _ _ hkeeps => hkeeps)
    fun _ => .bind (hmkdir _) fun _ => .bind (hmanifest _) fun _ => .bind (hmanifest _) fun _ => .pure fun _ _ hkeeps => hkeeps
  refine .bind (R := fun node _ files => node = files (c.artifactPath base fmt) ∧ keeps files)
    (.look fun _ _ hkeeps => ⟨rfl, hkeeps⟩) fun node => ?_
  cases node with
  | some node => exact .pure fun _ _ hfound => hfound.2
  | none =>
    rintro n files ⟨hnone, hkeeps⟩
    have hne : artifactPath base (artifactKeyOf w h) ≠ c.artifactPath base fmt := by
      intro heq
      change files _ = _ at hkeeps
      rw [heq, ← hnone] at hkeeps
      cases hkeeps
    exact Triple.bind (hput _ _ hne) (fun _ => hput _ _ hne) n files hkeeps

theorem execute_keeps (hh : IsHex h) (w : String) {content : Content T} (calls : List (Call T))
    (hfile : files (artifactPath base (artifactKeyOf w h)) = some (.file content)) :
    execute base fmt files calls (artifactPath base (artifactKeyOf w h)) = some (.file content) := by
  induction calls generalizing files with
  | nil => exact hfile
  | cons call calls ih =>
    apply ih
    cases call with
    | write c n =>
      have hspec := writeStageOutput_keeps fmt hh w content c n files hfile
      rw [Call.execute]
      revert hspec
      match writeStageOutput base fmt c n files with
      | (.ok a, n', files') => exact id
      | (.error e, n', files') => exact id
    | get t expected => exact hfile

/-- **Artifacts stay.** An artifact that reads back as a table reads back as this table after any calls of the store,
wherever they are cut off. -/
theorem artifacts_stay (base : PosixPath) (fmt : TableFormat T) (files : Files (Content T)) (w h : String) (hh : IsHex h)
    (table : T) (calls : List (Call T)) (hread : readArtifact base files (artifactKeyOf w h) = some table) :
    readArtifact base (execute base fmt files calls) (artifactKeyOf w h) = some table := by
  unfold readArtifact at hread
  split at hread
  · rename_i hfile
    cases hread
    rw [readArtifact, execute_keeps hh w calls hfile]
  · cases hread

end Stay

section Example

open scoped Ascii

def twoTables : TableFormat Bool where
  contentHash t := if t then "e3b0c4" else "9f86d0"
  numRows t := if t then 2 else 0
  size
    | .dir => 4096
    | .file .torn => 4
    | .file (.parquet _) => 612
    | .file (.json _) => 240
  hex t := by
    cases t <;> (unfold IsHex; decide)

def dataDir : PosixPath := ⟨true, ["data"]⟩

def scanCall : WriteCall Bool := ⟨⟨"w", "plan_1", "scan_orders"⟩, true, none⟩

def isDir (node : Option (Node (Content Bool))) : Bool :=
  match node with
  | some .dir => true
  | _ => false

/-- a write that is cut off before its manifest, and a write that returns -/
theorem store_reads_back_twice :
    let calls : List (Call Bool) := [.write scanCall 4, .write scanCall 9]
    ReadsBack dataDir scanCall (execute dataDir twoTables (emptyStore dataDir) calls) := by
  intro calls
  have hcareful : CarefulRun dataDir twoTables (emptyStore dataDir) calls := by
    refine ⟨⟨fun hdir => ?_, fun _ => by decide⟩, ⟨fun hdir => ?_, fun _ => by decide⟩, trivial⟩
    · have hisDir := congrArg isDir hdir
      revert hisDir
      decide +kernel
    · have hisDir := congrArg isDir hdir
      revert hisDir
      decide +kernel
  have hdistinct : Distinct twoTables (calls.flatMap Call.tables) := by
    unfold Distinct
    decide
  have hreturned : ((writeStageOutput dataDir twoTables scanCall 9
      (execute dataDir twoTables (emptyStore dataDir) [.write scanCall 4])).1.toOption).isSome = true := by
    decide +kernel
  obtain ⟨a, ha⟩ := exists_ok_of_isSome hreturned
  exact (store_reads_back dataDir twoTables calls hcareful hdistinct).1 [.write scanCall 4] scanCall 9 [] a rfl ha

/-- a write that is cut off within its parquet file, and the next one, which takes what is there for its artifact -/
theorem torn_artifact_served :
    ¬∀ (base : PosixPath) (fmt : TableFormat Bool) (calls : List (Call Bool)),
      Distinct fmt (calls.flatMap Call.tables) →
      ∀ before c n after a, calls = before ++ .write c n :: after →
        (writeStageOutput base fmt c n (execute base fmt (emptyStore base) before)).1 = .ok a →
          ReadsBack base c (execute base fmt (emptyStore base) (before ++ [.write c n])) := by
  intro hclaim
  have hreturned : ((writeStageOutput dataDir twoTables scanCall 9
      (execute dataDir twoTables (emptyStore dataDir) [.write scanCall 2])).1.toOption).isSome = true := by
    decide +kernel
  have hdistinct : Distinct twoTables ([Call.write scanCall 2, .write scanCall 9].flatMap Call.tables) := by
    unfold Distinct
    decide
  obtain ⟨a, ha⟩ := exists_ok_of_isSome hreturned
  obtain ⟨m, hmanifest, hread⟩ := hclaim dataDir twoTables [.write scanCall 2, .write scanCall 9] hdistinct
    [.write scanCall 2] scanCall 9 [] a rfl ha
  have hunread : (((getStageOutputManifest dataDir (execute dataDir twoTables (emptyStore dataDir)
      [.write scanCall 2, .write scanCall 9]) scanCall.slot).toOption.bind id).bind fun m =>
        readArtifact dataDir (execute dataDir twoTables (emptyStore dataDir)
          [.write scanCall 2, .write scanCall 9]) m.artifact.artifactKey) = none := by
    decide +kernel
  change getStageOutputManifest dataDir (execute dataDir twoTables (emptyStore dataDir)
    [.write scanCall 2, .write scanCall 9]) scanCall.slot = _ at hmanifest
  rw [hmanifest] at hunread
  exact absurd (hunread.symm.trans hread) (by simp)

/-- an artifact after a write of its table to another stage, and one of another table that is cut off -/
theorem artifacts_stay_twice : readArtifact dataDir (execute dataDir twoTables
      (execute dataDir twoTables (emptyStore dataDir) [.write scanCall 9])
      [.write ⟨⟨"w", "plan_2", "scan_orders"⟩, true, none⟩ 9, .write ⟨scanCall.slot, false, none⟩ 2])
    (artifactKeyOf "w" "e3b0c4") = some true :=
  artifacts_stay dataDir twoTables _ "w" "e3b0c4" (twoTables.hex true) true _ (by decide +kernel)

end Example

end Langbridge.Federation.Artifacts
