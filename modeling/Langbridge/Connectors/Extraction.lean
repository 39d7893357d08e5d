/-
Extracting a resource of a remote that honours its documented parameters, page by page. The next cursor is computed from
the records that a page keeps, and `since` is sent with the first request only.
-/
import Langbridge.Connectors.Pages

namespace Langbridge.Connectors

open Core List Dict Option
open Langbridge.Runtime

section Remote

variable [PyCursors] (m : ConnectorManifest) (resource : ConnectorResource)

variable (style : PageStyle) (n : ℕ) (resume : String → List Record)

/-- an answer whose page starts `rest`, the records from its cursor on, with `before` others before them; `behind` are
the records of the sequence behind the page. The fields that the manifest names say whether it is the last, how many
records there are, or whether there are more, and where; the payload in itself says nothing of the kind. -/
structure Answers (before : ℕ) (rest behind : List Record) (payload : Json) : Prop where
  items : extractRecords payload (responseKey m resource) = rest.take n
  isLast : style = .offset → truthyFlag (extractPath payload m.pagination.responseIsLastField) =
    (named m.pagination.responseIsLastField && decide (rest.length ≤ n))
  total : style = .offset → coerceNumericCursor (extractPath payload m.pagination.responseTotalField) =
    .ok (if named m.pagination.responseTotalField then some ((before + rest.length : ℕ) : ℤ) else none)
  hasMore : style = .lastRecord → named m.pagination.responseHasMoreField = true →
    (extractPath payload m.pagination.responseHasMoreField).truthy = decide (n < rest.length)
  moreFlag : style = .response → named m.pagination.responseHasMoreField = true →
    truthyFlag (extractPath payload m.pagination.responseHasMoreField) = decide (n < rest.length)
  token : style = .response → n < rest.length →
    ∃ token, normalizedCursor (extractPath payload m.pagination.nextCursorField) = some token ∧ resume token = behind
  noToken : style = .response → rest.length ≤ n → named m.pagination.responseHasMoreField = false →
    normalizedCursor (extractPath payload m.pagination.nextCursorField) = none

/-- the place in the sequence, between `before` and `rest`, that a cursor stands for -/
def Denotes (cursor : String) (before rest : List Record) : Prop :=
  match style with
  | .offset => cursor = toString before.length
  | .lastRecord => ∃ record ∈ before.getLast?, recordCursor m resource record = some cursor
  | .response => resume cursor = rest

/-- the records that the since parameter of a request selects -/
def selectedBy (selects : String → Record → Bool) : Option Json → Record → Bool
  | some (.str value) => selects value
  | _ => fun _ => true

/-- A remote that holds the sequence `rs` and honours the parameters of each request by themselves: without a cursor it
answers with the first of the records that the since parameter selects, with a cursor with those from its place on. -/
structure Honours (remote : Remote) (rs : List Record) (selects : String → Record → Bool) (limit : Option ℤ) : Prop where
  paged : pageStyle m = some style
  size : pageSize m (baseParams m resource limit) = .ok n
  size_pos : 0 < n
  cursor_ne_limit : m.pagination.cursorParam ≠ m.pagination.limitParam
  since_ne_limit : m.incremental.requestParam ≠ m.pagination.limitParam
  since_ne_cursor : m.incremental.requestParam ≠ m.pagination.cursorParam
  cursor_free : (baseParams m resource limit).get? m.pagination.cursorParam = none
  since_free : (baseParams m resource limit).get? m.incremental.requestParam = none
  first : ∀ params, pageSize m params = .ok n → params.get? m.pagination.cursorParam = none →
    ∃ response, remote resource.path params = .ok response ∧
      let selected := selectedBy selects (params.get? m.incremental.requestParam)
      Answers m resource style n resume 0 (rs.filter selected) (afterKept selected n rs) response.payload
  later : ∀ params cursor before rest, pageSize m params = .ok n →
    params.get? m.pagination.cursorParam = some (.str cursor) → params.get? m.incremental.requestParam = none →
    rs = before ++ rest → Denotes m resource style resume cursor before rest →
    ∃ response, remote resource.path params = .ok response ∧
      Answers m resource style n resume before.length rest (rest.drop n) response.payload
  cursors : style = .lastRecord → ∀ r ∈ rs, ∃ c, recordCursor m resource r = some c
  distinct : style = .offset → rs.Nodup

/-- `after` are the records of the sequence at or after `since`, for the connector as for the remote -/
structure AtOrAfter (rs : List Record) (selects : String → Record → Bool) (since : Option String)
    (after : Record → Bool) : Prop where
  unset : since.getD "" = "" → ∀ r ∈ rs, after r = true
  compared : since.getD "" ≠ "" →
    ∃ th, threshold m (since.getD "") = .ok th ∧ ∀ r ∈ rs, keepsRecord m th r = .ok (after r)
  sent : sinceMode m resource since = .sent → ∃ value,
    normalizeIncrementalValue (since.getD "") m.incremental.cursorType = .ok value ∧ ∀ r ∈ rs, selects value r = after r
  checkpoints : ∀ r ∈ rs, ∃ o, coerceNumericCursor (extractPath (.obj r) m.incremental.cursorField) = .ok o

/-! ## One page -/

def styledCursor (payload : Json) (records : List Record) (current : Option String) (size : ℤ) :
    PageStyle → Except SyncError (Option String)
  | .offset => offsetCursor m payload records current size
  | .lastRecord => .ok (lastRecordCursor m resource payload records)
  | .response => .ok (responseCursor m payload)

theorem nextCursor_paged (hpaged : pageStyle m = some style) (response : Response) (records : List Record)
    (current : Option String) (size : ℤ) : nextCursor m resource response records current size =
      styledCursor m resource response.payload records current size style := by
  rw [pageStyle] at hpaged
  rw [nextCursor]
  split_ifs at hpaged ⊢ with h1 h2 h3
  · cases hpaged
    rfl
  · cases hpaged
    rfl
  · cases hpaged
    rfl

/-- an offset is read back from the cursor that it was written to -/
theorem int_current (current : Option String) (before : ℕ) (hcurrent : current.getD "0" = toString before) :
    let text := PyText.strip (if current.getD "" = "" then "0" else current.getD "")
    PyCursors.int (if text = "" then "0" else text) = some (before : ℤ) := by
  have hne : ∀ k : ℕ, toString k ≠ "" := fun k => Nat.repr_ne_empty
  have htext : PyText.strip (if current.getD "" = "" then "0" else current.getD "") = toString before := by
    cases current with
    | none =>
      rw [getD_none] at hcurrent
      rw [getD_none, if_pos rfl, hcurrent, PyCursors.strip_nat]
    | some c =>
      rw [getD_some] at hcurrent
      rw [getD_some, if_neg (hcurrent ▸ hne before), hcurrent, PyCursors.strip_nat]
  intro text
  rw [show text = toString before from htext, if_neg (hne before), PyCursors.int_nat]

theorem offsetCursor_answers (hn : 0 < n) (kept : Record → Bool) (before : ℕ) (rest behind : List Record) (payload : Json)
    (current : Option String) (hanswers : Answers m resource .offset n resume before rest behind payload)
    (hcurrent : current.getD "0" = toString before) :
    offsetCursor m payload (firstKept kept n rest) current n =
      .ok (if pageStops m .offset n kept rest then none
        else some (toString (before + (firstKept kept n rest).length))) := by
  have hint := int_current current before hcurrent
  have hlast := hanswers.isLast rfl
  have htotal := hanswers.total rfl
  have hstops := offsetStops_iff (named m.pagination.responseIsLastField) (named m.pagination.responseTotalField) n
    rest.length (firstKept kept n rest).length
  simp only [offsetCursor, hint, hlast, htotal, raising, elim_some]
  change (if _ then _ else _) = _
  change pageStops m .offset n kept rest = true ↔ _ at hstops
  by_cases hend : (named m.pagination.responseIsLastField && decide (rest.length ≤ n)) = true
  · rw [if_pos hend, if_pos (hstops.2 (.inl (by simpa using hend)))]
  · rw [if_neg hend]
    rw [Bool.and_eq_true, decide_eq_true_eq] at hend
    change Except.ok _ = _
    by_cases htot : named m.pagination.responseTotalField = true
    · have hgo : pageStops m .offset n kept rest = true ↔
          rest.length ≤ (firstKept kept n rest).length ∨ (firstKept kept n rest).length = 0 := by
        rw [hstops, htot]
        simp [hend]
      simp only [htot, if_true, elim_some, decide_eq_true_eq, isNone_some, Bool.and_false,
        Bool.false_eq_true, if_false, List.isEmpty_iff, ← List.length_eq_zero_iff, hgo]
      split_ifs <;> first | rfl | omega
    · have hgo : pageStops m .offset n kept rest = true ↔
          (firstKept kept n rest).length = 0 ∨ (firstKept kept n rest).length < n := by
        rw [hstops, Bool.eq_false_iff.2 htot]
        simp [hend]
      simp only [htot, isNone_none, elim_none, Bool.and_true, Bool.and_eq_true, decide_eq_true_eq,
        Bool.false_eq_true, if_false, List.isEmpty_iff, ← List.length_eq_zero_iff, hgo]
      split_ifs <;> first | rfl | omega

theorem lastRecordCursor_answers (kept : Record → Bool) (before : ℕ) (rest behind : List Record) (payload : Json)
    (hanswers : Answers m resource .lastRecord n resume before rest behind payload) :
    lastRecordCursor m resource payload (firstKept kept n rest) =
      if pageStops m .lastRecord n kept rest then none
      else (firstKept kept n rest).getLast?.bind (recordCursor m resource) := by
  rw [lastRecordCursor, flag_iff n _ rest.length _ (hanswers.hasMore rfl), pageStops]
  by_cases hend : (named m.pagination.responseHasMoreField && decide (rest.length ≤ n)) = true
  · rw [if_pos hend, hend, Bool.true_or, if_pos rfl]
  · rw [if_neg hend, Bool.eq_false_iff.2 hend, Bool.false_or]
    split_ifs with hnone
    · rw [isEmpty_iff.1 hnone]
      rfl
    · rfl

theorem responseCursor_answers (before : ℕ) (rest behind : List Record) (payload : Json)
    (hanswers : Answers m resource .response n resume before rest behind payload) :
    if rest.length ≤ n then responseCursor m payload = none
    else ∃ token, responseCursor m payload = some token ∧ resume token = behind := by
  rw [responseCursor, flag_iff n _ rest.length _ (hanswers.moreFlag rfl)]
  split_ifs with hend hflag hflag
  · rfl
  · apply hanswers.noToken rfl hend
    simpa [hend] using hflag
  · rw [Bool.and_eq_true, decide_eq_true_eq] at hflag
    exact absurd hflag.2 hend
  · exact hanswers.token rfl (not_le.1 hend)

/-- what the cursor after a page stands for -/
def Points (before : ℕ) (page behind : List Record) (cursor : String) : PageStyle → Prop
  | .offset => cursor = toString (before + page.length)
  | .lastRecord => ∃ record ∈ page.getLast?, recordCursor m resource record = some cursor
  | .response => resume cursor = behind

theorem normalizedCursor_ne {v : Json} {cursor : String} (h : normalizedCursor v = some cursor) : cursor ≠ "" := by
  unfold normalizedCursor at h
  split at h
  · cases h
  · split_ifs at h with hblank
    cases h
    exact hblank

theorem responseCursor_ne {payload : Json} {cursor : String} (h : responseCursor m payload = some cursor) :
    cursor ≠ "" := by
  unfold responseCursor at h
  split_ifs at h
  exact normalizedCursor_ne h

/-- **One page**: the cursor after a page of `rest`, of which the records in `kept` are kept -/
theorem nextCursor_answers (hpaged : pageStyle m = some style) (hn : 0 < n) (kept : Record → Bool) (before : ℕ)
    (rest behind : List Record) (response : Response) (current : Option String)
    (hanswers : Answers m resource style n resume before rest behind response.payload)
    (hcurrent : style = .offset → current.getD "0" = toString before)
    (hcursors : style = .lastRecord → ∀ r ∈ rest, ∃ c, recordCursor m resource r = some c) :
    if pageStops m style n kept rest then
      nextCursor m resource response (firstKept kept n rest) current n = .ok none
    else ∃ c, nextCursor m resource response (firstKept kept n rest) current n = .ok (some c) ∧ c ≠ "" ∧
      Points m resource resume before (firstKept kept n rest) behind c style := by
  rw [nextCursor_paged m resource style hpaged]
  cases style with
  | offset =>
    rw [styledCursor, offsetCursor_answers m resource n resume hn kept before rest behind response.payload current
      hanswers (hcurrent rfl)]
    split_ifs
    · rfl
    · exact ⟨_, rfl, Nat.repr_ne_empty, rfl⟩
  | lastRecord =>
    rw [styledCursor, lastRecordCursor_answers m resource n resume kept before rest behind _ hanswers]
    split_ifs with hstop
    · rfl
    · have hne : firstKept kept n rest ≠ [] := by
        intro hnil
        rw [pageStops, hnil] at hstop
        simp at hstop
      have hlast := getLast?_eq_some_getLast hne
      have hmem : (firstKept kept n rest).getLast hne ∈ rest :=
        mem_of_mem_take (mem_of_mem_filter (getLast_mem hne))
      obtain ⟨c, hc⟩ := hcursors rfl _ hmem
      rw [hlast, bind_some, hc]
      exact ⟨c, rfl, normalizedCursor_ne hc, _, hlast, hc⟩
  | response =>
    have hresponse := responseCursor_answers m resource n resume before rest behind _ hanswers
    rw [styledCursor, pageStops]
    by_cases hend : rest.length ≤ n
    · rw [if_pos hend] at hresponse
      rw [if_pos (decide_eq_true hend), hresponse]
    · rw [if_neg hend] at hresponse
      obtain ⟨token, htoken, hplace⟩ := hresponse
      rw [if_neg (by simpa using hend)]
      exact ⟨token, by rw [htoken], responseCursor_ne m htoken, hplace⟩

theorem buildRequestParams_first (since : Option String) (limit : Option ℤ) :
    buildRequestParams m resource since none limit =
      if sinceMode m resource since = .sent then
        (normalizeIncrementalValue (since.getD "") m.incremental.cursorType).map fun value =>
          (baseParams m resource limit).set m.incremental.requestParam (.str value)
      else .ok (baseParams m resource limit) := by
  have hcursor : ¬(none : Option String).getD "" ≠ "" := fun h => h rfl
  rw [buildRequestParams, if_neg hcursor]
  by_cases hmode : sinceMode m resource since = .sent
  · obtain ⟨hset, hincremental, hstrategy⟩ := (sinceMode_sent_iff m resource since).1 hmode
    rw [if_pos hmode, if_pos (by simp [hset, hincremental, hstrategy])]
  · rw [if_neg hmode, if_neg]
    intro hcontra
    rw [Bool.and_eq_true, Bool.and_eq_true, decide_eq_true_eq, decide_eq_true_eq] at hcontra
    exact hmode ((sinceMode_sent_iff m resource since).2 ⟨hcontra.1.1, hcontra.1.2, hcontra.2⟩)

theorem keptRecords_eq (th : Threshold) (after : Record → Bool) (page : List Record)
    (h : ∀ r ∈ page, keepsRecord m th r = .ok (after r)) : keptRecords m th page = .ok (page.filter after) := by
  induction page with
  | nil => rfl
  | cons r page ih =>
    rw [keptRecords, h r mem_cons_self, ih fun r' hr' => h r' (mem_cons_of_mem r hr')]
    rw [filter_cons]
    rfl

theorem filterIncrementalRecords_eq {rs : List Record} {selects : String → Record → Bool} {since : Option String}
    {after : Record → Bool} (h : AtOrAfter m resource rs selects since after) (page : List Record)
    (hpage : ∀ r ∈ page, r ∈ rs) :
    filterIncrementalRecords m resource page since = .ok (page.filter (keptBy m resource since after)) := by
  by_cases hmode : sinceMode m resource since = .filtered
  · obtain ⟨hset, hincremental, hstrategy⟩ := (sinceMode_filtered_iff m resource since).1 hmode
    obtain ⟨th, hth, hkeep⟩ := h.compared hset
    rw [keptBy, if_pos hmode, filterIncrementalRecords, if_neg (by simp [hset, hincremental, hstrategy]), hth]
    exact keptRecords_eq m th after page fun r hr => hkeep r (hpage r hr)
  · rw [keptBy, if_neg hmode, filter_true, filterIncrementalRecords, if_pos]
    rw [sinceMode_filtered_iff] at hmode
    by_contra hcontra
    simp at hcontra
    exact hmode ⟨hcontra.1.1, hcontra.1.2, hcontra.2⟩

theorem checkpointCursor_ok {rs : List Record}
    (h : ∀ r ∈ rs, ∃ o, coerceNumericCursor (extractPath (.obj r) m.incremental.cursorField) = .ok o)
    (page : List Record) (hpage : ∀ r ∈ page, r ∈ rs) : ∃ checkpoint, checkpointCursor m page = .ok checkpoint := by
  unfold checkpointCursor
  split_ifs
  · exact ⟨_, rfl⟩
  · obtain ⟨numbers, hnumbers⟩ := mapM_ok coerceNumericCursor (cursorValues m page) fun v hv => by
        obtain ⟨r, hr, rfl⟩ := mem_map.1 (mem_of_mem_filter hv)
        exact h r (hpage r hr)
    rw [hnumbers]
    exact ⟨_, rfl⟩
  · exact ⟨_, rfl⟩
  · exact ⟨_, rfl⟩

theorem readPage_answers {rs : List Record} {selects : String → Record → Bool} {since : Option String}
    {after : Record → Bool} (hafter : AtOrAfter m resource rs selects since after) (hpaged : pageStyle m = some style)
    (hn : 0 < n) (before : ℕ) (rest behind : List Record) (response : Response) (current : Option String)
    (hanswers : Answers m resource style n resume before rest behind response.payload)
    (hcurrent : style = .offset → current.getD "0" = toString before)
    (hcursors : style = .lastRecord → ∀ r ∈ rs, ∃ c, recordCursor m resource r = some c)
    (hrest : ∀ r ∈ rest, r ∈ rs) :
    let kept := keptBy m resource since after
    ∃ p, readPage m resource response since current n = .ok p ∧
      p.records = (firstKept kept n rest).map .obj ∧
      if pageStops m style n kept rest then p.next = none
      else ∃ c, p.next = some (some c) ∧ c ≠ "" ∧ Points m resource resume before (firstKept kept n rest) behind c style := by
  intro kept
  have hfilter : filterIncrementalRecords m resource (extractRecords response.payload (responseKey m resource)) since =
      .ok (firstKept kept n rest) := by
    rw [hanswers.items]
    exact filterIncrementalRecords_eq m resource hafter _ fun r hr => hrest r (mem_of_mem_take hr)
  obtain ⟨checkpoint, hcheckpoint⟩ := checkpointCursor_ok m hafter.checkpoints (firstKept kept n rest)
    fun r hr => hrest r (mem_of_mem_take (mem_of_mem_filter hr))
  have hnext := nextCursor_answers m resource style n resume hpaged hn kept before rest behind response current hanswers
    hcurrent fun hstyle r hr => hcursors hstyle r (hrest r hr)
  split_ifs at hnext ⊢
  · refine ⟨⟨_, none, checkpoint⟩, ?_, rfl, rfl⟩
    rw [readPage, hfilter]
    simp only [bind, Except.bind, hnext, hcheckpoint]
    rfl
  · obtain ⟨c, hc, hne, hpoints⟩ := hnext
    refine ⟨⟨_, some c, checkpoint⟩, ?_, rfl, c, if_neg hne, hne, hpoints⟩
    rw [readPage, hfilter]
    simp only [bind, Except.bind, hc, hcheckpoint]
    rfl

/-! ## The pages from a place on -/

theorem pageSize_set (params : Dict String Json) (key : String) (v : Json) (hkey : key ≠ m.pagination.limitParam) :
    pageSize m (params.set key v) = pageSize m params := by
  rw [pageSize, pageSize, get?_set_of_ne _ _ hkey.symm]

/-- a cursor for the records from `rest` on -/
def AtPlace (rs : List Record) (cursor : Option String) (rest : List Record) : Prop :=
  ∃ before c, cursor = some c ∧ c ≠ "" ∧ rs = before ++ rest ∧ Denotes m resource style resume c before rest

/-- the cursor after a page stands for the place behind the records it keeps -/
theorem atPlace_next (kept : Record → Bool) (rs before rest : List Record) (hrs : rs = before ++ rest) (c : String)
    (hne : c ≠ "") (hgo : pageStops m style n kept rest = false)
    (hpoints : Points m resource resume before.length (firstKept kept n rest) (rest.drop n) c style) :
    AtPlace m resource style resume rs (some c) (pageRest style n kept rest) := by
  cases style with
  | offset =>
    have hle : (firstKept kept n rest).length ≤ rest.length :=
      (length_filter_le _ _).trans (length_take_le' _ _)
    refine ⟨before ++ rest.take (firstKept kept n rest).length, c, rfl, hne, ?_, ?_⟩
    · rw [pageRest, append_assoc, take_append_drop, hrs]
    · change c = toString _
      rw [length_append, length_take, Nat.min_eq_left hle]
      exact hpoints
  | lastRecord =>
    have hpage : firstKept kept n rest ≠ [] := by
      intro hnil
      rw [pageStops, hnil] at hgo
      simp at hgo
    obtain ⟨a, x, hrest, hlast⟩ := afterKept_page kept _ rest (firstKept_eq_take kept n rest) hpage
    obtain ⟨record, hrecord, hcursor⟩ := hpoints
    rw [hlast, mem_def, Option.some.injEq] at hrecord
    refine ⟨before ++ a ++ [x], c, rfl, hne, ?_, x, by simp, hrecord ▸ hcursor⟩
    rw [pageRest, append_assoc, append_assoc, singleton_append, ← hrest, hrs]
  | response =>
    refine ⟨before ++ rest.take n, c, rfl, hne, ?_, hpoints⟩
    rw [pageRest, append_assoc, take_append_drop, hrs]

theorem atPlace_sent (after : Record → Bool) (rs : List Record) (c : String) (hne : c ≠ "")
    (hgo : pageStops m style n (fun _ => true) (rs.filter after) = false)
    (hpoints : Points m resource resume 0 (firstKept (fun _ => true) n (rs.filter after)) (afterKept after n rs) c style) :
    AtPlace m resource style resume rs (some c) (sentRest style n after rs) := by
  have hfirst : firstKept (fun _ => true) n (rs.filter after) = (rs.filter after).take n := filter_true _
  cases style with
  | offset =>
    refine ⟨rs.take (firstKept (fun _ => true) n (rs.filter after)).length, c, rfl, hne,
      (take_append_drop _ rs).symm, ?_⟩
    have hle : (firstKept (fun _ => true) n (rs.filter after)).length ≤ rs.length := by
      rw [hfirst]
      exact (length_take_le' _ _).trans (length_filter_le _ _)
    change c = toString _
    rw [length_take, Nat.min_eq_left hle, ← Nat.zero_add (firstKept _ n _).length]
    exact hpoints
  | lastRecord =>
    have hpage : firstKept (fun _ => true) n (rs.filter after) ≠ [] := by
      intro hnil
      rw [pageStops, hnil] at hgo
      simp at hgo
    have htake : firstKept (fun _ => true) n (rs.filter after) =
        (rs.filter after).take (firstKept (fun _ => true) n (rs.filter after)).length := by
      rw [hfirst, length_take, ← take_eq_take_min]
    obtain ⟨a, x, hrest, hlast⟩ := afterKept_page after _ rs htake hpage
    obtain ⟨record, hrecord, hcursor⟩ := hpoints
    rw [hlast, mem_def, Option.some.injEq] at hrecord
    refine ⟨a ++ [x], c, rfl, hne, ?_, x, by simp, hrecord ▸ hcursor⟩
    rw [sentRest, append_assoc, singleton_append, ← hrest]
  | response =>
    obtain ⟨a, ha⟩ := afterKept_suffix after n rs
    exact ⟨a, c, rfl, hne, ha.symm, hpoints⟩

section Runs

variable {remote : Remote} {rs : List Record} {selects : String → Record → Bool} {limit : Option ℤ}
  {since : Option String} {after : Record → Bool} {resourceName : String}

/-- following the pages from a cursor on extracts some records -/
def ExtractsFrom (remote : Remote) (resourceName : String) (since : Option String) (limit : Option ℤ)
    (cursor : Option String) (extracted : List Record) : Prop :=
  ∃ pages, Paging.Chain (fun c => extractResource m remote resourceName since c limit) ApiExtractResult.next
      cursor pages ∧ pages.flatMap ApiExtractResult.records = extracted.map .obj

theorem ExtractsFrom.iff {extracted expected : List Record}
    (h : ExtractsFrom m remote resourceName since limit none extracted) :
    ExtractsFrom m remote resourceName since limit none expected ↔ extracted = expected := by
  obtain ⟨pages, hpages, hextract⟩ := h
  constructor
  · rintro ⟨pages', hpages', hextract'⟩
    rw [hpages'.unique hpages, hextract] at hextract'
    exact map_injective_iff.2 (fun _ _ heq => by cases heq; rfl) hextract'
  · rintro rfl
    exact ⟨pages, hpages, hextract⟩

variable (h : Honours m resource style n resume remote rs selects limit)
  (hafter : AtOrAfter m resource rs selects since after) (hresource : requireResource m resourceName = .ok resource)

include h hafter hresource

theorem extract_later (cursor : Option String) (rest : List Record) (hplace : AtPlace m resource style resume rs cursor rest) :
    let kept := keptBy m resource since after
    ∃ p, extractResource m remote resourceName since cursor limit = .ok p ∧
      p.records = (firstKept kept n rest).map .obj ∧
      if pageStops m style n kept rest then p.next = none
      else ∃ c, p.next = some c ∧ AtPlace m resource style resume rs c (pageRest style n kept rest) := by
  intro kept
  obtain ⟨before, c, rfl, hne, hrs, hdenotes⟩ := hplace
  set params := (baseParams m resource limit).set m.pagination.cursorParam (.str c) with hparams
  have hbuild : buildRequestParams m resource since (some c) limit = .ok params := if_pos hne
  have hsize : pageSize m params = .ok n := by
    rw [hparams, pageSize_set m _ _ _ h.cursor_ne_limit, h.size]
  obtain ⟨response, hresponse, hanswers⟩ := h.later params c before rest hsize (get?_set_self _ _ _)
    (by rw [hparams, get?_set_of_ne _ _ h.since_ne_cursor, h.since_free]) hrs hdenotes
  obtain ⟨p, hp, hrecords, hnext⟩ := readPage_answers m resource style n resume hafter h.paged h.size_pos before.length
    rest (rest.drop n) response (some c) hanswers (fun hstyle => by subst hstyle; exact hdenotes) h.cursors
    fun r hr => hrs ▸ mem_append_right before hr
  refine ⟨p, ?_, hrecords, ?_⟩
  · rw [extractResource, hresource]
    simp only [bind, Except.bind, hbuild, hsize, hresponse, hp]
  · split_ifs at hnext ⊢ with hstop
    · exact hnext
    · obtain ⟨c', hc', hne', hpoints⟩ := hnext
      exact ⟨some c', hc', atPlace_next m resource style n resume kept rs before rest hrs c' hne'
        (Bool.eq_false_iff.2 hstop) hpoints⟩

theorem extract_pages (cursor : Option String) (rest : List Record) (hplace : AtPlace m resource style resume rs cursor rest) :
    ExtractsFrom m remote resourceName since limit cursor (pagesWalk m style n (keptBy m resource since after) rest) := by
  set kept := keptBy m resource since after
  refine Paging.Chain.of_walk (AtPlace m resource style resume rs) ApiExtractResult.records
    (fun l => (firstKept kept n l).map .obj) (fun l => (pagesWalk m style n kept l).map .obj)
    (pageStops m style n kept) (pageRest style n kept) (fun l => ?_) (pageRest_lt m style n h.size_pos kept)
    (extract_later m resource style n resume h hafter hresource) cursor rest hplace
  rw [pagesWalk_eq]
  split_ifs
  · rfl
  · exact map_append

/-! ## The first page -/

/-- the page of a request without a cursor, which selects the records in `sel` -/
theorem extract_first (params : Dict String Json) (hbuild : buildRequestParams m resource since none limit = .ok params)
    (hsize : pageSize m params = .ok n) (hcursor : params.get? m.pagination.cursorParam = none) (sel : Record → Bool)
    (hsel : ∀ r ∈ rs, selectedBy selects (params.get? m.incremental.requestParam) r = sel r) :
    let kept := keptBy m resource since after
    ∃ p, extractResource m remote resourceName since none limit = .ok p ∧
      p.records = (firstKept kept n (rs.filter sel)).map .obj ∧
      if pageStops m style n kept (rs.filter sel) then p.next = none
      else ∃ c, p.next = some (some c) ∧ c ≠ "" ∧
        Points m resource resume 0 (firstKept kept n (rs.filter sel)) (afterKept sel n rs) c style := by
  obtain ⟨response, hresponse, hanswers⟩ := h.first params hsize hcursor
  dsimp only at hanswers
  rw [filter_congr hsel, afterKept_congr sel _ n rs hsel] at hanswers
  obtain ⟨p, hp, hrecords, hnext⟩ := readPage_answers m resource style n resume hafter h.paged h.size_pos 0
    (rs.filter sel) (afterKept sel n rs) response none hanswers (fun _ => rfl) h.cursors
    fun r hr => mem_of_mem_filter hr
  refine ⟨p, ?_, hrecords, hnext⟩
  rw [extractResource, hresource]
  simp only [bind, Except.bind, hbuild, hsize, hresponse, hp]

/-- the records of the first page, and those from the place behind it -/
theorem extracts_of_first {p : ApiExtractResult} {page rest : List Record} {stops : Bool}
    {Leads : String → Prop} (hp : extractResource m remote resourceName since none limit = .ok p)
    (hrecords : p.records = page.map .obj)
    (hnext : if stops then p.next = none else ∃ c, p.next = some (some c) ∧ c ≠ "" ∧ Leads c)
    (hplace : ∀ c, c ≠ "" → stops = false → Leads c → AtPlace m resource style resume rs (some c) rest) :
    ExtractsFrom m remote resourceName since limit none
      (if stops then page else page ++ pagesWalk m style n (keptBy m resource since after) rest) := by
  cases stops with
  | true => exact ⟨[p], .last hp hnext, by simp [hrecords]⟩
  | false =>
    obtain ⟨c, hc, hne, hleads⟩ := hnext
    obtain ⟨pages, hpages, hextract⟩ := extract_pages m resource style n resume h hafter hresource (some c) rest
      (hplace c hne rfl hleads)
    exact ⟨p :: pages, .more hp hc hpages, by simp [hrecords, hextract]⟩

/-- the records of the whole chain, where `since` is not sent -/
theorem extract_unsent (hmode : sinceMode m resource since ≠ .sent) :
    ExtractsFrom m remote resourceName since limit none (pagesWalk m style n (keptBy m resource since after) rs) := by
  have hbuild : buildRequestParams m resource since none limit = .ok (baseParams m resource limit) := by
    rw [buildRequestParams_first, if_neg hmode]
  obtain ⟨p, hp, hrecords, hnext⟩ := extract_first m resource style n resume h hafter hresource _ hbuild h.size
    h.cursor_free (fun _ => true) fun r _ => by rw [h.since_free]; rfl
  rw [filter_true] at hrecords hnext
  rw [afterKept_of_all _ _ _ fun _ _ => rfl] at hnext
  rw [pagesWalk_eq]
  exact extracts_of_first m resource style n resume h hafter hresource hp hrecords hnext fun c hne hgo hpoints =>
    atPlace_next m resource style n resume _ rs [] rs rfl c hne hgo hpoints

/-- the records of the whole chain, where `since` is sent with the first request -/
theorem extract_sent (hmode : sinceMode m resource since = .sent) :
    ExtractsFrom m remote resourceName since limit none ((rs.filter after).take n ++
        if pageStops m style n (fun _ => true) (rs.filter after) then [] else sentRest style n after rs) := by
  obtain ⟨value, hvalue, hselects⟩ := hafter.sent hmode
  set params := (baseParams m resource limit).set m.incremental.requestParam (.str value) with hparams
  have hbuild : buildRequestParams m resource since none limit = .ok params := by
    rw [buildRequestParams_first, if_pos hmode, hvalue]
    rfl
  have hkept : keptBy m resource since after = fun _ => true := by
    rw [keptBy, hmode]
    rfl
  have hfirst : firstKept (fun _ => true) n (rs.filter after) = (rs.filter after).take n := filter_true _
  obtain ⟨p, hp, hrecords, hnext⟩ := extract_first m resource style n resume h hafter hresource params hbuild
    (by rw [hparams, pageSize_set m _ _ _ h.since_ne_limit, h.size])
    (by rw [hparams, get?_set_of_ne _ _ h.since_ne_cursor.symm, h.cursor_free]) after fun r hr => by
      rw [hparams, get?_set_self]
      exact hselects r hr
  rw [hkept] at hrecords hnext
  have hall := pagesWalk_all m style n h.size_pos (sentRest style n after rs)
  rw [← hkept] at hall
  rw [← hall, ← hfirst, apply_ite (firstKept _ n _ ++ ·), append_nil]
  exact extracts_of_first m resource style n resume h hafter hresource hp hrecords hnext fun c hne hgo hpoints =>
    atPlace_sent m resource style n resume after rs c hne hgo hpoints

end Runs

/-! ## Completeness -/

/-- **Extraction.** Following `next_cursor` from the first call until none is returned extracts exactly the records at
or after `since`, in their order, when and only when: the token of an answer leads on, or the pages are found from the
kept records and these leave no gap, or what the requests without `since` still give is at or after it. -/
theorem extraction_complete_iff (remote : Remote) (rs : List Record) (selects : String → Record → Bool)
    (limit : Option ℤ) (since : Option String) (after : Record → Bool) (resourceName : String)
    (hremote : Honours m resource style n resume remote rs selects limit)
    (hafter : AtOrAfter m resource rs selects since after)
    (hresource : requireResource m resourceName = .ok resource) :
    (∃ pages, Paging.Chain (fun c => extractResource m remote resourceName since c limit) ApiExtractResult.next
        none pages ∧ pages.flatMap ApiExtractResult.records = (rs.filter after).map .obj) ↔
      Complete m style n (sinceMode m resource since) after rs := by
  by_cases hmode : sinceMode m resource since = .sent
  · rw [hmode, ← sent_iff m style n hremote.size_pos]
    exact ExtractsFrom.iff m (extract_sent m resource style n resume hremote hafter hresource hmode)
  · rw [← unsent_iff m resource style n hremote.size_pos since hmode after rs hremote.distinct]
    exact ExtractsFrom.iff m (extract_unsent m resource style n resume hremote hafter hresource hmode)

end Remote

/-! ## A page without a record at or after `since` -/

section Quiet

open scoped Ascii Decimal

/-- issues, paged by offset and filtered on the day they were updated -/
def issues : ConnectorResource where
  key := "issues"
  path := "/issues"
  primaryKey := "id"
  supportsIncremental := true
  responseItemsField := none
  requestParams := .empty

def tracker : ConnectorManifest where
  id := "tracker"
  pagination :=
    { strategy := "offset", responseItemsField := "values", limitParam := "maxResults", cursorParam := "startAt",
      responseHasMoreField := none, nextCursorField := none, nextCursorSource := "record",
      responseIsLastField := some "isLast", responseTotalField := some "total", linkHeaderParam := none,
      defaultPageSize := 1, maxPageSize := 100 }
  incremental := { strategy := "client_filter", requestParam := "since", cursorField := "updated", cursorType := "string" }
  resources := [issues]

/-- the answer of a tracker with `before` issues before `rest` -/
def trackerPayload (size before : ℕ) (rest : List Record) : Json :=
  .obj [("values", .arr ((rest.take size).map .obj)), ("isLast", .bool (rest.length ≤ size)),
    ("total", .int ((before + rest.length : ℕ) : ℤ))]

/-- a tracker that holds the issues `rs`, a number of them to a page -/
def trackerRemote (rs : List Record) : Remote := fun _ params =>
  (pageSize tracker params).map fun size =>
    let before := match params.get? "startAt" with
      | some (.str cursor) => ((PyCursors.int cursor).getD 0).toNat
      | _ => 0
    ⟨trackerPayload size.toNat before (rs.drop before), none⟩

theorem trackerPayload_answers (size before : ℕ) (rest behind : List Record) (resume : String → List Record) :
    Answers tracker issues .offset size resume before rest behind (trackerPayload size before rest) where
  items := by
    have hpath : extractPath (trackerPayload size before rest) (some "values") = .arr ((rest.take size).map .obj) := rfl
    have hkey : responseKey tracker issues = "values" := rfl
    rw [hkey, extractRecords, if_neg (by decide), hpath, recordsOf, filterMap_map]
    exact filterMap_some
  isLast _ := rfl
  total _ := rfl
  hasMore h := by cases h
  moreFlag h := by cases h
  token h := by cases h
  noToken h := by cases h

theorem trackerRemote_honours (rs : List Record) (hrs : rs.Nodup) (resume : String → List Record) :
    Honours tracker issues .offset 1 resume (trackerRemote rs) rs (fun _ _ => true) none where
  paged := rfl
  size := rfl
  size_pos := Nat.one_pos
  cursor_ne_limit := by decide
  since_ne_limit := by decide
  since_ne_cursor := by decide
  cursor_free := rfl
  since_free := rfl
  first params hsize hcursor := by
    have hselected : selectedBy (fun _ _ => true) (params.get? tracker.incremental.requestParam) = fun _ => true := by
      unfold selectedBy
      split <;> rfl
    change params.get? "startAt" = none at hcursor
    refine ⟨⟨trackerPayload 1 0 rs, none⟩, ?_, ?_⟩
    · rw [trackerRemote, hsize, hcursor]
      rfl
    · dsimp only
      rw [hselected, filter_true]
      exact trackerPayload_answers 1 0 rs _ resume
  later params cursor before rest hsize hcursor hsince hrs hdenotes := by
    change params.get? "startAt" = _ at hcursor
    refine ⟨⟨trackerPayload 1 before.length rest, none⟩, ?_, trackerPayload_answers 1 _ rest _ resume⟩
    have hint : PyCursors.int cursor = some (before.length : ℤ) := by
      rw [show cursor = toString before.length from hdenotes]
      exact PyCursors.int_nat _
    rw [trackerRemote, hsize, hcursor]
    simp only [Except.map, hint, getD_some, Int.toNat_natCast, hrs, drop_left]
  cursors h := by cases h
  distinct _ := hrs

def issue (id updated : String) : Record := [("id", .str id), ("updated", .str updated)]

/-- the first page holds an old issue only -/
def updates : List Record := [issue "1" "2025-01-01", issue "2" "2025-01-03"]

theorem updates_nodup : updates.Nodup := by
  simp [updates, issue]

/-- the issues updated since the second day of the year -/
def updated (r : Record) : Bool :=
  match r.lookup "updated" with
  | some (.str day) => decide ("2025-01-02" ≤ day)
  | _ => false

theorem updates_atOrAfter : AtOrAfter tracker issues updates (fun _ _ => true) (some "2025-01-02") updated where
  unset h := absurd h (by decide)
  compared _ := by
    refine ⟨.text "2025-01-02", rfl, fun r hr => ?_⟩
    rcases mem_cons.1 hr with rfl | hr
    · rfl
    · obtain rfl := mem_singleton.1 hr
      rfl
  sent h := absurd h (by decide)
  checkpoints r hr := by
    rcases mem_cons.1 hr with rfl | hr
    · exact ⟨none, rfl⟩
    · obtain rfl := mem_singleton.1 hr
      exact ⟨none, rfl⟩

/-- Of two issues, one to a page, only the second was updated since: the first page is left empty, and no other is
asked for. -/
theorem quietPage_ends :
    Honours tracker issues .offset 1 (fun _ => []) (trackerRemote updates) updates (fun _ _ => true) none ∧
    AtOrAfter tracker issues updates (fun _ _ => true) (some "2025-01-02") updated ∧
    ¬∃ pages, Paging.Chain (fun c => extractResource tracker (trackerRemote updates) "issues" (some "2025-01-02") c none)
        ApiExtractResult.next none pages ∧
      pages.flatMap ApiExtractResult.records = (updates.filter updated).map .obj := by
  refine ⟨trackerRemote_honours updates updates_nodup _, updates_atOrAfter, ?_⟩
  rintro ⟨pages, hpages, hextract⟩
  have hfirst : extractResource tracker (trackerRemote updates) "issues" (some "2025-01-02") none none =
      .ok ⟨[], none, none⟩ := rfl
  rw [hpages.unique (.last hfirst rfl)] at hextract
  cases hextract

/-- without `since` both pages are read -/
theorem updates_extracted :
    ∃ pages, Paging.Chain (fun c => extractResource tracker (trackerRemote updates) "issues" none c none)
        ApiExtractResult.next none pages ∧
      pages.flatMap ApiExtractResult.records = (updates.filter fun _ => true).map .obj := by
  refine (extraction_complete_iff tracker issues .offset 1 (fun _ => []) (trackerRemote updates) updates
    (fun _ _ => true) none none (fun _ => true) "issues" (trackerRemote_honours updates updates_nodup _) ?_ rfl).2
    fun _ _ => rfl
  exact
    { unset := fun _ _ _ => rfl
      compared := fun h => absurd rfl h
      sent := fun h => absurd h (by decide)
      checkpoints := updates_atOrAfter.checkpoints }

end Quiet

end Langbridge.Connectors
