/-
Storage URIs of local files (`runtime/utils/storage_uri.py`), the SQL that describes a file
(`dataset_execution.build_file_scan_sql`) and the SQL with which the federated file source scans it
(`federation/connectors/file.py`).

A path becomes a URI by percent-encoding. The schema is described from the path that `resolve_local_storage_path` reads
back. The federated source does not read it back: it drops every `file:///app/` from the URI and leaves the rest to
DuckDB, which takes a path literally, apart from stripping a leading `file://`.

The file system is a parameter: `Path.resolve` gives a path that resolves to itself. So are the checks of
`urllib.parse` on host names.
-/
import Langbridge.Core.Json
import Langbridge.Core.Percent
import Langbridge.Core.PosixPath
import Langbridge.Runtime.SqlParams

namespace Langbridge.Runtime.StorageUris

open Core Core.Percent PyText
open Runtime.SqlParams (escape)

/-! ## Paths -/

/-- an absolute path without components that are empty, `.` or `..` -/
structure AbsPath where
  names : List (List Char)
  proper : ∀ n ∈ names, n ≠ [] ∧ n ≠ ['.'] ∧ n ≠ ['.', '.'] ∧ '/' ∉ n

def AbsPath.text (p : AbsPath) : List Char := if p.names = [] then ['/'] else p.names.flatMap ('/' :: ·)

/-- the working directory and `Path(text).resolve()` -/
structure FileSystem where
  cwd : AbsPath
  resolve : List Char → Except String AbsPath
  resolve_text : ∀ x p, resolve x = .ok p → resolve p.text = .ok p

/-- the absolute path that a text names, as the operating system reads it -/
def located (cwd : AbsPath) (path : List Char) : List Char :=
  if path.head? = some '/' then path
  else if cwd.names = [] then '/' :: path else cwd.text ++ '/' :: path

def asUri (p : AbsPath) : String := String.ofList ("file://".toList ++ quote p.text)

def pathToStorageUri (fs : FileSystem) (path : List Char) : Except String String := do
  let p ← fs.resolve path
  return asUri p

/-! ## `urlparse` -/

/-- the checks on the host name of a URL that is not plain -/
structure UrlChecks where
  bracketed : List Char → Except String Unit
  normalized : List Char → Except String Unit

/-- the fields of `urlparse(uri)` that are read -/
structure ParseResult where
  scheme : List Char
  netloc : List Char
  path : List Char
deriving DecidableEq

def schemeChar (c : Char) : Bool := c.isAlphanum || c = '+' || c = '-' || c = '.'

def splitScheme (url : List Char) : List Char × List Char :=
  let before := url.takeWhile (· ≠ ':')
  if ':' ∈ url ∧ before.head?.any Char.isAlpha ∧ before.all schemeChar then
    (before.map Char.toLower, url.drop (before.length + 1))
  else ([], url)

/-- `_splitnetloc` -/
def splitNetloc (url : List Char) : List Char × List Char :=
  if ['/', '/'].isPrefixOf url then
    let inNetloc : Char → Bool := fun c => c ∉ ['/', '?', '#']
    ((url.drop 2).takeWhile inNetloc, (url.drop 2).dropWhile inNetloc)
  else ([], url)

def checkNetloc (C : UrlChecks) (netloc : List Char) : Except String Unit := do
  if decide ('[' ∈ netloc) ≠ decide (']' ∈ netloc) then throw "Invalid IPv6 URL"
  if '[' ∈ netloc then C.bracketed netloc
  if netloc.all isAscii then return () else C.normalized netloc

def usesParams : List String :=
  ["", "ftp", "hdl", "prospero", "http", "https", "shttp", "rtsp", "rtsps", "sip", "sips", "mms", "sftp", "tel"]

/-- `_splitparams`: the parameters follow the first `;` of the last component -/
def withoutParams (url : List Char) : List Char :=
  let last := (url.reverse.takeWhile (· ≠ '/')).reverse
  url.take (url.length - last.length) ++ last.takeWhile (· ≠ ';')

def urlparse (C : UrlChecks) (uri : List Char) : Except String ParseResult := do
  let url := (uri.dropWhile fun c => c.toNat ≤ 32).filter fun c => c ∉ ['\t', '\r', '\n']
  let (scheme, url) := splitScheme url
  let (netloc, url) := splitNetloc url
  checkNetloc C netloc
  let url := (url.takeWhile (· ≠ '#')).takeWhile (· ≠ '?')
  return ⟨scheme, netloc, if String.ofList scheme ∈ usesParams ∧ ';' ∈ url then withoutParams url else url⟩

/-! ## The readers of a storage URI -/

/-- `/C:/dir` without the first character -/
def withoutDriveSlash : List Char → List Char
  | '/' :: d :: ':' :: rest => d :: ':' :: rest
  | raw => raw

def resolveLocalStoragePath (fs : FileSystem) (C : UrlChecks) (U : Utf8) (uri : String) : Except String AbsPath := do
  let parsed ← urlparse C uri.toList
  if parsed.scheme = [] ∨ parsed.scheme = "file".toList then
    let raw := withoutDriveSlash (if parsed.path = [] then uri.toList else parsed.path)
    let raw :=
      if parsed.netloc ≠ [] ∧ parsed.netloc ≠ "localhost".toList then "//".toList ++ parsed.netloc ++ raw else raw
    fs.resolve (unquote U raw)
  else throw ("Unsupported storage URI scheme '" ++ String.ofList parsed.scheme ++ "'.")

def get (entries : List (String × Json)) (key : String) : Json := (entries.lookup key).getD .null

section Readers

variable [PyText]

/-- the options of a configuration, after the path -/
def csvOptions (config : List (String × Json)) : List Char :=
  let header := if ((config.lookup "header").getD (.bool true)).truthy then "true" else "false"
  let delimiter := escape ((get config "delimiter").orElse (.str ",")).text.toList
  let quote := escape ((get config "quote").orElse (.str "\"")).text.toList
  ',' :: (" header=".toList ++ header.toList ++ ", delim='".toList ++ delimiter ++ "', quote='".toList ++ quote ++
    "')".toList)

def readCsvAuto (config : List (String × Json)) (path : List Char) : List Char :=
  "read_csv_auto('".toList ++ (path ++ '\'' :: csvOptions config)

def readParquet (path : List Char) : List Char := "read_parquet('".toList ++ (path ++ "')".toList)

/-- `str(config.get(...) or "").strip().lower()` -/
def formatText (v : Json) : String := norm (v.orElse (.str "")).text

def buildFileScanSql (fs : FileSystem) (C : UrlChecks) (U : Utf8) (uri : String) (config : List (String × Json)) :
    Except String (List Char) := do
  let path ← resolveLocalStoragePath fs C U uri
  let normalized := escape path.text
  let configured := formatText ((get config "format").orElse (get config "file_format"))
  if configured = "parquet" ∨ ".parquet".toList <:+ (lower (String.ofList normalized)).toList then
    return readParquet normalized
  else return readCsvAuto config normalized

/-- `DuckDbFileRemoteSource._build_scan_sql` -/
def buildScanSql (uri : String) (format : String) (metadata : List (String × Json)) : List Char :=
  let path := removeAll "file:///app/" (escape uri.toList)
  if format = "parquet" then readParquet path else readCsvAuto metadata path

def storageUriFromBinding (tableKey : String) (metadata : List (String × Json)) : Except String String :=
  let uri := strip ((get metadata "storage_uri").orElse (.str "")).text
  if uri = "" then .error ("File binding '" ++ tableKey ++ "' is missing storage_uri metadata.") else .ok uri

/-- `_register_binding`: the scan behind the view of a table -/
def registerBinding (tableKey : String) (metadata : List (String × Json)) : Except String (List Char) := do
  let uri ← storageUriFromBinding tableKey metadata
  let format := formatText (get metadata "file_format")
  if format ≠ "csv" ∧ format ≠ "parquet" then
    throw ("Unsupported file format '" ++ format ++ "' for binding '" ++ tableKey ++ "'.")
  return buildScanSql uri format metadata

/-! ## Datasets -/

inductive FileFormat where
  | csv
  | parquet
deriving DecidableEq

def FileFormat.value : FileFormat → String
  | .csv => "csv"
  | .parquet => "parquet"

/-- the fields of a FILE dataset that its binding is built from -/
structure FileDataset where
  id : String
  name : String
  tableKey : String
  storageUri : Option String
  fileConfig : List (String × Json)
  synced : Bool
  syncSource : List (String × Json)

def FileDataset.sourceDetail (d : FileDataset) : String :=
  let named (key : String) := strip ((get d.syncSource key).orElse (.str "")).text
  if named "resource" ≠ "" then " (resource path '" ++ strip (get d.syncSource "resource").text ++ "')"
  else if named "table" ≠ "" then " (table '" ++ strip (get d.syncSource "table").text ++ "')"
  else if named "sql" ≠ "" then " (SQL query source)"
  else ""

def resolveFileStorageUri (d : FileDataset) : Except String String :=
  let own := strip (d.storageUri.getD "")
  let uri := if own ≠ "" then own else
    strip ((((get d.fileConfig "storage_uri").orElse (get d.fileConfig "uri")).orElse
      (get d.fileConfig "path")).orElse (.str "")).text
  if uri ≠ "" then .ok uri
  else if d.synced then
    .error ("Synced dataset '" ++ d.name ++ "' has not been populated yet. Run dataset sync for dataset '" ++ d.name ++
      "'" ++ d.sourceDetail ++ " before querying it.")
  else .error ("FILE dataset '" ++ d.id ++ "' is missing storage_uri.")

def resolveFileFormat (d : FileDataset) (uri : String) : Except String FileFormat :=
  let configured := formatText ((get d.fileConfig "format").orElse (get d.fileConfig "file_format"))
  if configured = "csv" then .ok .csv
  else if configured = "parquet" then .ok .parquet
  else if ".parquet".toList <:+ (lower uri).toList then .ok .parquet
  else if ".csv".toList <:+ (lower uri).toList then .ok .csv
  else .error ("FILE dataset '" ++ d.id ++ "' must declare a supported file format (csv or parquet).")

/-- the metadata of the binding that `build_binding_for_dataset` makes of a FILE dataset -/
def bindingMetadata (d : FileDataset) : Except String (List (String × Json)) := do
  let uri ← resolveFileStorageUri d
  let format ← resolveFileFormat d uri
  return [("storage_uri", .str uri), ("file_format", .str format.value)] ++
    ["header", "delimiter", "quote"].filterMap fun key => (d.fileConfig.lookup key).map fun v => (key, v)

def liveScanSql (d : FileDataset) : Except String (List Char) := do
  let metadata ← bindingMetadata d
  registerBinding d.tableKey metadata

def describeSql (fs : FileSystem) (C : UrlChecks) (U : Utf8) (d : FileDataset) : Except String (List Char) :=
  buildFileScanSql fs C U (d.storageUri.getD "") d.fileConfig

end Readers

/-! ## What DuckDB opens -/

/-- a string literal after its opening quote -/
def literalFrom : List Char → List Char
  | '\'' :: '\'' :: cs => '\'' :: literalFrom cs
  | '\'' :: _ => []
  | c :: cs => c :: literalFrom cs
  | [] => []

/-- the first string literal of a statement -/
def firstLiteral (sql : List Char) : List Char := literalFrom ((sql.dropWhile (· ≠ '\'')).drop 1)

def opened (cwd : AbsPath) (sql : List Char) : List Char :=
  let path := firstLiteral sql
  located cwd (if "file://".toList.isPrefixOf path then path.drop 7 else path)

/-! ## Texts of paths -/

theorem text_cons (p : AbsPath) : ∃ rest, p.text = '/' :: rest := by
  unfold AbsPath.text
  split_ifs with h
  · exact ⟨[], rfl⟩
  · obtain ⟨n, ns, hn⟩ := List.exists_cons_of_ne_nil h
    exact ⟨n ++ ns.flatMap ('/' :: ·), by rw [hn]; rfl⟩

theorem located_text (cwd p : AbsPath) : located cwd p.text = p.text := by
  obtain ⟨rest, h⟩ := text_cons p
  simp [located, h]

/-- what follows the first component of a text -/
theorem component_eq {n m t r : List Char} (hn : '/' ∉ n) (hm : '/' ∉ m) (ht : t.head?.all (· = '/'))
    (h : n ++ t = m ++ '/' :: r) : n = m ∧ t = '/' :: r := by
  have hplain : ∀ l : List Char, '/' ∉ l → ∀ c ∈ l, decide (c ≠ '/') = true := fun l hl c hc =>
    decide_eq_true fun hcs => hl (hcs ▸ hc)
  have hstop : t.takeWhile (fun c => decide (c ≠ '/')) = [] := by
    cases t with
    | nil => rfl
    | cons c t => simp_all
  have htake := congrArg (List.takeWhile fun c => decide (c ≠ '/')) h
  rw [List.takeWhile_append_of_pos (hplain n hn), List.takeWhile_append_of_pos (hplain m hm), hstop] at htake
  have hnm : n = m := by simpa using htake
  subst hnm
  exact ⟨rfl, List.append_cancel_left h⟩

variable {p : AbsPath} {r : List Char}

/-- a path below `/app` goes on with a component -/
theorem app_rest (h : p.text = "/app/".toList ++ r) : r ≠ [] ∧ r.head? ≠ some '/' := by
  have hsep : ∀ ns : List (List Char), (ns.flatMap ('/' :: ·)).head?.all (· = '/') = true := by
    intro ns
    cases ns <;> simp
  unfold AbsPath.text at h
  split_ifs at h with hnames
  · cases h
  · obtain ⟨n, ns, hn⟩ := List.exists_cons_of_ne_nil hnames
    rw [hn, List.flatMap_cons] at h
    have htail : n ++ ns.flatMap ('/' :: ·) = "app".toList ++ '/' :: r := List.cons.inj h |>.2
    obtain ⟨-, hr⟩ := component_eq (p.proper n (by simp [hn])).2.2.2 (by decide) (hsep ns) htail
    cases ns with
    | nil => cases hr
    | cons m ns =>
      have hm := p.proper m (by simp [hn])
      rw [List.flatMap_cons, List.cons_append, List.cons.injEq] at hr
      obtain ⟨c, m', rfl⟩ := List.exists_cons_of_ne_nil hm.1
      rw [← hr.2]
      exact ⟨by simp, fun hc => hm.2.2.2 (by rw [← Option.some.inj hc]; exact List.mem_cons_self)⟩

/-! ## Literals -/

theorem escape_of_not_mem {t : List Char} (h : '\'' ∉ t) : escape t = t := by
  induction t with
  | nil => rfl
  | cons c t ih =>
    have hc : c ≠ '\'' := fun hc => h (by simp [hc])
    have hcons : escape (c :: t) = (if c = '\'' then ['\'', '\''] else [c]) ++ escape t := rfl
    rw [hcons, if_neg hc, ih fun ht => h (by simp [ht])]
    rfl

theorem literalFrom_escape (t : List Char) {post : List Char} (hpost : post.head? ≠ some '\'') :
    literalFrom (escape t ++ '\'' :: post) = t := by
  induction t with
  | nil =>
    cases post with
    | nil => rfl
    | cons c post =>
      have hc : c ≠ '\'' := fun hc => hpost (by simp [hc])
      exact literalFrom.eq_2 _ fun cs h => hc (List.cons.inj h).1
  | cons c t ih =>
    have hcons : escape (c :: t) = (if c = '\'' then ['\'', '\''] else [c]) ++ escape t := rfl
    rw [hcons]
    by_cases hc : c = '\''
    · rw [if_pos hc, hc]
      exact congrArg _ ih
    · rw [if_neg hc, List.append_assoc, List.singleton_append, literalFrom.eq_3 _ _ (fun _ h _ => hc h) hc, ih]

theorem firstLiteral_readParquet (t : List Char) : firstLiteral (readParquet (escape t)) = t := by
  have h : firstLiteral (readParquet (escape t)) = literalFrom (escape t ++ '\'' :: [')']) := rfl
  rw [h, literalFrom_escape t (by decide)]

theorem firstLiteral_readCsvAuto [PyText] (config : List (String × Json)) (t : List Char) :
    firstLiteral (readCsvAuto config (escape t)) = t := by
  have h : firstLiteral (readCsvAuto config (escape t)) = literalFrom (escape t ++ '\'' :: csvOptions config) := rfl
  rw [h, literalFrom_escape t (by simp [csvOptions])]

/-! ## Quoted paths -/

theorem toList_asUri (p : AbsPath) : (asUri p).toList = "file://".toList ++ quote p.text := String.toList_ofList

variable {c : Char}

/-- the characters of a URI of a path -/
theorem mem_asUri (h : c ∈ (asUri p).toList) : safe c = true ∨ c = '%' ∨ c = ':' := by
  rw [toList_asUri, List.mem_append] at h
  rcases h with h | h
  · exact forall_mem_of_all (p := fun c => safe c = true ∨ c = '%' ∨ c = ':') (by decide) c h
  · rcases mem_quote h with hs | rfl
    · exact .inl hs
    · exact .inr (.inl rfl)

theorem asUri_not_mem (hs : safe c = false) (hp : c ≠ '%') (hc : c ≠ ':') : c ∉ (asUri p).toList := fun h => by
  rcases mem_asUri h with h | h | h
  · simp [hs] at h
  · exact hp h
  · exact hc h

theorem asUri_visible (h : c ∈ (asUri p).toList) : 33 ≤ c.toNat ∧ c.toNat ≤ 126 := by
  rcases mem_asUri h with h | rfl | rfl
  · exact safe_visible h
  · decide
  · decide

theorem quote_text_cons (p : AbsPath) : ∃ rest, p.text = '/' :: rest ∧ quote p.text = '/' :: quote rest := by
  obtain ⟨rest, h⟩ := text_cons p
  exact ⟨rest, h, by rw [h, quote_cons, quoteChar_safe (by decide)]; rfl⟩

theorem urlparse_asUri (C : UrlChecks) (p : AbsPath) :
    urlparse C (asUri p).toList = .ok ⟨"file".toList, [], quote p.text⟩ := by
  obtain ⟨rest, -, hq⟩ := quote_text_cons p
  have hlstrip : (asUri p).toList.dropWhile (fun c => decide (c.toNat ≤ 32)) = (asUri p).toList := by
    rw [toList_asUri]
    rfl
  have hfilter : (asUri p).toList.filter (fun c => decide (c ∉ ['\t', '\r', '\n'])) = (asUri p).toList := by
    refine List.filter_eq_self.2 fun c hc => decide_eq_true fun hmem => ?_
    have hvis := (asUri_visible hc).1
    have hlow : ∀ d ∈ ['\t', '\r', '\n'], d.toNat < 33 := forall_mem_of_all (by decide)
    exact absurd (hlow c hmem) (by omega)
  have hscheme : splitScheme (asUri p).toList = ("file".toList, '/' :: '/' :: quote p.text) := by
    rw [toList_asUri]
    rfl
  have hnetloc : splitNetloc ('/' :: '/' :: quote p.text) = ([], quote p.text) := by
    rw [hq]
    rfl
  have hclean : ∀ d : Char, safe d = false → d ≠ '%' →
      (quote p.text).takeWhile (fun c => decide (c ≠ d)) = quote p.text := fun d hs hd =>
    List.takeWhile_eq_self_iff.2 fun c hc => decide_eq_true fun h => not_mem_quote hs hd p.text (h ▸ hc)
  simp only [urlparse, hlstrip, hfilter, hscheme, hnetloc, hclean '#' (by decide) (by decide),
    hclean '?' (by decide) (by decide)]
  rfl

/-- `resolve_local_storage_path` reads every path back -/
theorem resolve_asUri (fs : FileSystem) (C : UrlChecks) (U : Utf8) (hp : fs.resolve p.text = .ok p) :
    resolveLocalStoragePath fs C U (asUri p) = .ok p := by
  obtain ⟨rest, -, hq⟩ := quote_text_cons p
  have hdrive : withoutDriveSlash (quote p.text) = quote p.text := by
    rw [hq]
    unfold withoutDriveSlash
    split
    · rename_i d tail h
      have hcolon : ':' ∈ quote rest := by simp [(List.cons.inj h).2]
      exact absurd hcolon (not_mem_quote (by decide) (by decide) rest)
    · rfl
  have hne : quote p.text ≠ [] := by simp [hq]
  have hparsed := urlparse_asUri C p
  unfold resolveLocalStoragePath
  rw [hparsed]
  simp only [bind, Except.bind, or_true, if_true, if_neg hne, hdrive, ne_eq, not_true_eq_false, false_and, if_false,
    unquote_quote, hp]

/-! ## What the scan opens -/

theorem firstLiteral_scan [PyText] (uri format : String) (metadata : List (String × Json)) (h : '\'' ∉ uri.toList) :
    firstLiteral (buildScanSql uri format metadata) = removeAll "file:///app/" uri.toList := by
  have hremoved : '\'' ∉ removeAll "file:///app/" uri.toList := fun hc => h (mem_of_mem_removeFrom hc)
  rw [buildScanSql, escape_of_not_mem h]
  split_ifs
  · rw [← escape_of_not_mem hremoved, firstLiteral_readParquet, escape_of_not_mem hremoved]
  · rw [← escape_of_not_mem hremoved, firstLiteral_readCsvAuto, escape_of_not_mem hremoved]

/-- the text left of the URI of a path below `/app` -/
theorem removeAll_app (h : p.text = "/app/".toList ++ r) : removeAll "file:///app/" (asUri p).toList = quote r := by
  have huri : (asUri p).toList = "file:///app/".toList ++ quote r := by
    have hpre : quote "/app/".toList = "/app/".toList := quote_of_safe (forall_mem_of_all (by decide))
    rw [toList_asUri, h, quote_append, hpre]
    rfl
  rw [huri, removeAll, removeFrom_prefix (by decide)]
  exact removeFrom_of_not_mem (show ':' ∈ _ by decide) (not_mem_quote (by decide) (by decide) r)

/-- the URI of any other path stays as it is -/
theorem removeAll_other (h : ¬ "/app/".toList <+: p.text) :
    removeAll "file:///app/" (asUri p).toList = (asUri p).toList := by
  have hnot : ¬ "/app/".toList <+: quote p.text := by
    rintro ⟨t, ht⟩
    obtain ⟨r, hr, -⟩ := quote_eq_append (forall_mem_of_all (by decide)) ht.symm
    exact h ⟨r, hr.symm⟩
  have hrest : removeFrom "file:///app/".toList 0 (quote p.text) = quote p.text :=
    removeFrom_of_not_mem (show ':' ∈ _ by decide) (not_mem_quote (by decide) (by decide) _)
  rw [toList_asUri, removeAll, removeFrom_append, hrest]
  intro k hpos hle hprefix
  have hlength : "file://".toList.length = 7 := by decide
  rw [hlength] at hle hprefix
  have hmismatch : ∀ i < 6, ("file://".toList.drop (i + 1)).head? ≠ some 'f' ∧
      ("file://".toList.drop (i + 1)).head?.isSome = true := by decide
  by_cases hk : k = 7
  · subst hk
    exact hnot ((List.prefix_append_right_inj "file://".toList).1 (List.isPrefixOf_iff_prefix.1 hprefix))
  · obtain ⟨i, rfl⟩ : ∃ i, k = 6 - i := ⟨6 - k, by omega⟩
    obtain ⟨hf, hsome⟩ := hmismatch i (by omega)
    have hdrop : 7 - (6 - i) = i + 1 := by omega
    rw [hdrop] at hprefix
    obtain ⟨c, hc⟩ := Option.isSome_iff_exists.1 hsome
    obtain ⟨t, ht⟩ := List.head?_eq_some_iff.1 hc
    obtain ⟨u, hu⟩ := List.isPrefixOf_iff_prefix.1 hprefix
    rw [ht, List.cons_append] at hu
    exact hf (by rw [hc, ← (List.cons.inj hu).1]; rfl)

theorem opened_of_literal {cwd : AbsPath} {sql path : List Char} (h : firstLiteral sql = path) :
    opened cwd sql = located cwd (if "file://".toList.isPrefixOf path then path.drop 7 else path) := by
  subst h
  rfl

theorem quote_head (hne : r ≠ []) (h : r.head? ≠ some '/') : (quote r).head? ≠ some '/' := by
  obtain ⟨c, r, rfl⟩ := List.exists_cons_of_ne_nil hne
  cases hc : safe c with
  | true => simpa [quoteChar_safe hc] using h
  | false =>
    obtain ⟨x, y, rest, hq⟩ := quoteChar_unsafe hc
    simp [hq]

/-- the working directory before a quoted text gives the text below `/app` -/
theorem below_app_iff (cwd : AbsPath) (hne : r ≠ []) (hhead : r.head? ≠ some '/') :
    located cwd (quote r) = "/app/".toList ++ r ↔ (∀ c ∈ r, safe c = true) ∧ cwd.text = "/app".toList := by
  rw [located, if_neg (quote_head hne hhead)]
  split_ifs with hnames
  · have hroot : cwd.text = ['/'] := by simp [AbsPath.text, hnames]
    refine ⟨fun h => ?_, fun h => absurd (hroot.symm.trans h.2) (by decide)⟩
    have happSafe : ∀ c ∈ "app/".toList, safe c = true := forall_mem_of_all (by decide)
    exact absurd (List.cons.inj h).2 (quote_ne_append happSafe (by decide) r)
  · obtain ⟨n, ns, hn⟩ := List.exists_cons_of_ne_nil hnames
    have htext : cwd.text = '/' :: (n ++ ns.flatMap ('/' :: ·)) := by simp [AbsPath.text, hn]
    refine ⟨fun h => ?_, fun h => ?_⟩
    · rw [htext, List.cons_append, List.append_assoc] at h
      have hsep : (ns.flatMap ('/' :: ·) ++ '/' :: quote r).head?.all (· = '/') = true := by cases ns <;> simp
      obtain ⟨happ, hr⟩ := component_eq (cwd.proper n (by simp [hn])).2.2.2 (by decide) hsep
        (show n ++ _ = "app".toList ++ '/' :: r from (List.cons.inj h).2)
      cases ns with
      | nil =>
        have hself : quote r = r := (List.cons.inj hr).2
        exact ⟨(quote_eq_self_iff r).1 hself, by rw [htext, happ]; rfl⟩
      | cons m ns =>
        have hlength := congrArg List.length hr
        have hle := length_le_quote r
        simp only [List.flatMap_cons, List.cons_append, List.length_cons, List.length_append] at hlength
        omega
    · rw [h.2, quote_of_safe h.1]
      rfl

theorem opened_scan_iff [PyText] (cwd p : AbsPath) (format : String) (metadata : List (String × Json)) :
    opened cwd (buildScanSql (asUri p) format metadata) = p.text ↔
      (∀ c ∈ p.text, safe c = true) ∧ ("/app/".toList <+: p.text → cwd.text = "/app".toList) := by
  have hquote : '\'' ∉ (asUri p).toList := asUri_not_mem (by decide) (by decide) (by decide)
  rw [opened_of_literal (firstLiteral_scan _ _ _ hquote)]
  by_cases happ : "/app/".toList <+: p.text
  · obtain ⟨r, hr⟩ := happ
    have hrest := app_rest hr.symm
    have hscheme : ¬ "file://".toList.isPrefixOf (quote r) = true := fun h =>
      not_mem_quote (c := ':') (by decide) (by decide) r ((List.isPrefixOf_iff_prefix.1 h).subset (by decide))
    rw [removeAll_app hr.symm, if_neg hscheme, ← hr, below_app_iff cwd hrest.1 hrest.2]
    have happSafe : ∀ c ∈ "/app/".toList, safe c = true := forall_mem_of_all (by decide)
    have hsafe : (∀ c ∈ "/app/".toList ++ r, safe c = true) ↔ ∀ c ∈ r, safe c = true :=
      ⟨fun h c hc => h c (List.mem_append_right _ hc), fun h c hc => (List.mem_append.1 hc).elim (happSafe c) (h c)⟩
    rw [hsafe]
    exact ⟨fun h => ⟨h.1, fun _ => h.2⟩, fun h => ⟨h.1, h.2 ⟨r, rfl⟩⟩⟩
  · rw [removeAll_other happ, toList_asUri]
    have hscheme : "file://".toList.isPrefixOf ("file://".toList ++ quote p.text) = true :=
      List.isPrefixOf_iff_prefix.2 ⟨_, rfl⟩
    have hdrop : ("file://".toList ++ quote p.text).drop 7 = quote p.text := rfl
    obtain ⟨rest, -, hq⟩ := quote_text_cons p
    have hlocated : located cwd (quote p.text) = quote p.text := by simp [located, hq]
    rw [if_pos hscheme, hdrop, hlocated, quote_eq_self_iff]
    exact ⟨fun h => ⟨h, fun hc => absurd hc happ⟩, fun h => h.1⟩

/-! ## Datasets of local files -/

/-- the readers of a dataset all open one file: the one that `resolve_local_storage_path` names, the one the columns are
described from and the one a federated query scans -/
structure ReadersOpen [PyText] (fs : FileSystem) (C : UrlChecks) (U : Utf8) (d : FileDataset) (p : AbsPath) : Prop where
  named : resolveLocalStoragePath fs C U (d.storageUri.getD "") = .ok p
  described : ∃ sql, describeSql fs C U d = .ok sql ∧ opened fs.cwd sql = p.text
  scanned : ∃ sql, liveScanSql d = .ok sql ∧ opened fs.cwd sql = p.text

section Datasets

variable [PyGraph]

theorem opened_described (fs : FileSystem) (C : UrlChecks) (U : Utf8) (hp : fs.resolve p.text = .ok p)
    (config : List (String × Json)) :
    ∃ sql, buildFileScanSql fs C U (asUri p) config = .ok sql ∧ opened fs.cwd sql = p.text := by
  have hopen : ∀ sql, firstLiteral sql = p.text → opened fs.cwd sql = p.text := by
    intro sql h
    obtain ⟨rest, htext⟩ := text_cons p
    have hscheme : ¬ "file://".toList.isPrefixOf p.text = true := by
      rw [htext]
      simp
    rw [opened_of_literal h, if_neg hscheme, located_text]
  unfold buildFileScanSql
  rw [resolve_asUri fs C U hp]
  simp only [bind, Except.bind]
  split_ifs
  · exact ⟨_, rfl, hopen _ (firstLiteral_readParquet p.text)⟩
  · exact ⟨_, rfl, hopen _ (firstLiteral_readCsvAuto config p.text)⟩

theorem strip_asUri (p : AbsPath) : strip (asUri p) = asUri p :=
  PyGraph.strip_graph _ fun _ hc => asUri_visible hc

omit [PyGraph] in
theorem asUri_ne (p : AbsPath) : asUri p ≠ "" := by
  intro h
  have hlist := congrArg String.toList h
  rw [toList_asUri] at hlist
  cases hlist

theorem formatText_value (f : FileFormat) : formatText (.str f.value) = f.value := by
  have hnorm : norm f.value = f.value := by cases f <;> exact PyWords.norm_word _ (by decide)
  have hor : (Json.str f.value).orElse (.str "") = .str f.value := by cases f <;> rfl
  rw [formatText, hor]
  exact hnorm

theorem liveScanSql_eq {d : FileDataset} {f : FileFormat} (huri : d.storageUri = some (asUri p))
    (hformat : resolveFileFormat d (asUri p) = .ok f) :
    ∃ metadata, liveScanSql d = .ok (buildScanSql (asUri p) f.value metadata) := by
  have hresolved : resolveFileStorageUri d = .ok (asUri p) := by
    simp [resolveFileStorageUri, huri, strip_asUri, asUri_ne]
  have hor : (Json.str (asUri p)).orElse (.str "") = .str (asUri p) := by
    simp [Json.orElse, Json.truthy, asUri_ne]
  have hscan : ∀ rest, registerBinding d.tableKey (("storage_uri", .str (asUri p)) ::
      ("file_format", .str f.value) :: rest) = .ok (buildScanSql (asUri p) f.value
        (("storage_uri", .str (asUri p)) :: ("file_format", .str f.value) :: rest)) := by
    intro rest
    have hfmt : ¬ (f.value ≠ "csv" ∧ f.value ≠ "parquet") := by cases f <;> decide
    have hbinding : storageUriFromBinding d.tableKey (("storage_uri", .str (asUri p)) ::
        ("file_format", .str f.value) :: rest) = .ok (asUri p) := by
      simp [storageUriFromBinding, get, hor, Json.text, strip_asUri, asUri_ne]
    have hget : get (("storage_uri", .str (asUri p)) :: ("file_format", .str f.value) :: rest) "file_format" =
        .str f.value := rfl
    rw [registerBinding, hbinding, hget, formatText_value]
    simp only [bind, Except.bind, if_neg hfmt]
    rfl
  exact ⟨_, by rw [liveScanSql, bindingMetadata, hresolved]; simp only [bind, Except.bind, hformat]; exact hscan _⟩

theorem readersOpen_iff {fs : FileSystem} {C : UrlChecks} {U : Utf8} {d : FileDataset} {f : FileFormat}
    (hp : fs.resolve p.text = .ok p) (huri : d.storageUri = some (asUri p))
    (hformat : resolveFileFormat d (asUri p) = .ok f) :
    ReadersOpen fs C U d p ↔
      (∀ c ∈ p.text, safe c = true) ∧ ("/app/".toList <+: p.text → fs.cwd.text = "/app".toList) := by
  have hasUri : d.storageUri.getD "" = asUri p := by simp [huri]
  obtain ⟨metadata, hscan⟩ := liveScanSql_eq huri hformat
  rw [← opened_scan_iff fs.cwd p f.value metadata]
  refine ⟨fun h => ?_, fun h => ⟨?_, ?_, _, hscan, h⟩⟩
  · obtain ⟨sql, hsql, hopened⟩ := h.scanned
    rw [hscan] at hsql
    rwa [Except.ok.inj hsql]
  · rw [hasUri]
    exact resolve_asUri fs C U hp
  · rw [describeSql, hasUri]
    exact opened_described fs C U hp d.fileConfig

/-- every reader opens the file of a dataset exactly when its path needs no encoding and, below `/app/`, when the process
works in `/app` -/
theorem readers_agree_iff (fs : FileSystem) (C : UrlChecks) (U : Utf8) (d : FileDataset) {path : List Char}
    {p : AbsPath} {f : FileFormat} (hpath : fs.resolve path = .ok p)
    (huri : pathToStorageUri fs path = .ok (d.storageUri.getD ""))
    (hformat : resolveFileFormat d (d.storageUri.getD "") = .ok f) :
    ReadersOpen fs C U d p ↔
      (∀ c ∈ p.text, safe c = true) ∧ ("/app/".toList <+: p.text → fs.cwd.text = "/app".toList) := by
  have hasUri : d.storageUri.getD "" = asUri p := by
    rw [pathToStorageUri, hpath] at huri
    exact (Except.ok.inj huri).symm
  have hsome : d.storageUri = some (asUri p) := by
    cases hd : d.storageUri with
    | none =>
      rw [hd] at hasUri
      exact absurd hasUri.symm (asUri_ne p)
    | some uri => exact congrArg some (by rw [hd] at hasUri; exact hasUri)
  rw [hasUri] at hformat
  exact readersOpen_iff (fs.resolve_text path p hpath) hsome hformat

end Datasets

/-! ## A file whose name has a space -/

section Runs

open scoped Ascii

def oneFile (cwd p : AbsPath) : FileSystem where
  cwd := cwd
  resolve x := if x = p.text then .ok p else .error "No such file or directory"
  resolve_text x q h := by
    split_ifs at h
    cases h
    exact if_pos rfl

theorem oneFile_resolve (cwd p : AbsPath) : (oneFile cwd p).resolve p.text = .ok p := if_pos rfl

def plainUrls : UrlChecks := ⟨fun _ => .ok (), fun _ => .ok ()⟩

def srv : AbsPath := ⟨["srv".toList], by decide⟩

def yearFile : AbsPath := ⟨["srv".toList, "sales 2024.parquet".toList], by decide⟩

def monthFile : AbsPath := ⟨["srv".toList, "sales-05.parquet".toList], by decide⟩

def sales (p : AbsPath) : FileDataset :=
  ⟨"7d2c", "sales", "sales", some (asUri p), [("format", .str "parquet"), ("managed_dataset", .bool true)], true, []⟩

/-- `/srv/sales 2024.parquet` is described, and scanned as `/srv/sales%202024.parquet` -/
theorem year_not_found :
    (∃ sql, describeSql (oneFile srv yearFile) plainUrls strictUtf8 (sales yearFile) = .ok sql ∧
      opened srv sql = "/srv/sales 2024.parquet".toList) ∧
    (∃ sql, liveScanSql (sales yearFile) = .ok sql ∧ opened srv sql = "/srv/sales%202024.parquet".toList) ∧
    ¬ ReadersOpen (oneFile srv yearFile) plainUrls strictUtf8 (sales yearFile) yearFile := by
  have hresolve := oneFile_resolve srv yearFile
  refine ⟨opened_described _ plainUrls strictUtf8 hresolve _, ?_, fun h => ?_⟩
  · exact ⟨_, rfl, by decide +kernel⟩
  · have hsafe := ((readersOpen_iff (f := .parquet) hresolve rfl rfl).1 h).1
    exact absurd (hsafe ' ' (by decide)) (by decide)

theorem month_found : ReadersOpen (oneFile srv monthFile) plainUrls strictUtf8 (sales monthFile) monthFile :=
  (readers_agree_iff (oneFile srv monthFile) plainUrls strictUtf8 (sales monthFile) (f := .parquet)
    (oneFile_resolve srv monthFile) rfl rfl).2 ⟨forall_mem_of_all (by decide), by decide⟩

end Runs

end Langbridge.Runtime.StorageUris
