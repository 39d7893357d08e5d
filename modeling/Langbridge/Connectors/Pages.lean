/-
The pages of a declarative connector, as walks over the records of the remote: where the connector stops, where it goes
on and what it has kept by then, for each style of pagination and each use of `since`.

Main results: `pagesWalk_all`, `unsent_iff`, `sent_iff`.
-/
import Langbridge.Connectors.Declarative
import Langbridge.Core.Walks

namespace Langbridge.Connectors

open Core List

/-- how the next page is found, other than by a `Link` header -/
inductive PageStyle where
  | offset
  | lastRecord
  | response
deriving DecidableEq

/-- what a connector does with `since` -/
inductive SinceMode where
  | ignored
  | filtered
  | sent
deriving DecidableEq

section Pages

variable (m : ConnectorManifest) (resource : ConnectorResource)

def pageStyle : Option PageStyle :=
  if m.pagination.nextCursorSource = "link_header" then none
  else if m.pagination.nextCursorSource = "response" then some .response
  else if m.pagination.strategy = "offset" then some .offset
  else some .lastRecord

def sinceMode (since : Option String) : SinceMode :=
  if since.getD "" = "" || !resource.supportsIncremental then .ignored
  else if m.incremental.strategy = "client_filter" then .filtered
  else if m.incremental.strategy = "request_param" then .sent
  else .ignored

def named (field : Option String) : Bool := field.getD "" ≠ ""

theorem sinceMode_eq (since : Option String) : sinceMode m resource since =
    if since.getD "" ≠ "" ∧ resource.supportsIncremental = true then
      if m.incremental.strategy = "client_filter" then .filtered
      else if m.incremental.strategy = "request_param" then .sent else .ignored
    else .ignored := by
  unfold sinceMode
  by_cases hsince : since.getD "" = ""
  · simp [hsince]
  · cases hincremental : resource.supportsIncremental <;> simp [hsince]

theorem sinceMode_filtered_iff (since : Option String) : sinceMode m resource since = .filtered ↔
    since.getD "" ≠ "" ∧ resource.supportsIncremental = true ∧ m.incremental.strategy = "client_filter" := by
  rw [sinceMode_eq, ← and_assoc]
  split_ifs with hset hfiltered <;> simp_all

theorem sinceMode_sent_iff (since : Option String) : sinceMode m resource since = .sent ↔
    since.getD "" ≠ "" ∧ resource.supportsIncremental = true ∧ m.incremental.strategy = "request_param" := by
  rw [sinceMode_eq, ← and_assoc]
  split_ifs with hset hfiltered hsent <;> simp_all

/-- the records of a page that the connector keeps -/
def keptBy (since : Option String) (after : Record → Bool) : Record → Bool :=
  if sinceMode m resource since = .filtered then after else fun _ => true

variable (style : PageStyle) (n : ℕ)

/-! ## Where the pages end -/

/-- the connector stops at a page of `rest` -/
def pageStops (kept : Record → Bool) (rest : List Record) : Bool :=
  match style with
  | .offset => offsetStops (named m.pagination.responseIsLastField) (named m.pagination.responseTotalField) n
      rest.length (firstKept kept n rest).length
  | .lastRecord => (named m.pagination.responseHasMoreField && decide (rest.length ≤ n)) ||
      (firstKept kept n rest).isEmpty
  | .response => decide (rest.length ≤ n)

/-- or goes on with the records from here on -/
def pageRest (kept : Record → Bool) (rest : List Record) : List Record :=
  match style with
  | .offset => rest.drop (firstKept kept n rest).length
  | .lastRecord => afterKept kept (firstKept kept n rest).length rest
  | .response => rest.drop n

/-- the records that the pages from here on keep -/
def pagesWalk (kept : Record → Bool) (rest : List Record) : List Record :=
  match style with
  | .offset => offsetWalk kept (named m.pagination.responseIsLastField) (named m.pagination.responseTotalField) n rest
  | .lastRecord => lastWalk kept (named m.pagination.responseHasMoreField) n rest
  | .response => rest.filter kept

theorem pagesWalk_eq (kept : Record → Bool) (rest : List Record) :
    pagesWalk m style n kept rest = if pageStops m style n kept rest then firstKept kept n rest
      else firstKept kept n rest ++ pagesWalk m style n kept (pageRest style n kept rest) := by
  cases style with
  | offset => rw [pagesWalk, offsetWalk]; rfl
  | lastRecord => rw [pagesWalk, lastWalk]; rfl
  | response =>
    simp only [pagesWalk, pageStops, pageRest, decide_eq_true_eq, firstKept_prefix]
    split_ifs with h
    · rw [firstKept, take_of_length_le h]
    · rfl

theorem pageRest_lt (hn : 0 < n) (kept : Record → Bool) (rest : List Record)
    (h : pageStops m style n kept rest = false) : (pageRest style n kept rest).length < rest.length := by
  have hle : (firstKept kept n rest).length ≤ rest.length :=
    (length_filter_le _ _).trans (length_take_le' _ _)
  cases style with
  | offset =>
    have hne : (firstKept kept n rest).length ≠ 0 := by
      intro hzero
      have hstop : offsetStops (named m.pagination.responseIsLastField) (named m.pagination.responseTotalField) n
          rest.length (firstKept kept n rest).length = true :=
        (offsetStops_iff _ _ _ _ _).2 (.inr (.inr (.inl hzero)))
      rw [pageStops, hstop] at h
      cases h
    rw [pageRest, length_drop]
    omega
  | lastRecord =>
    rw [pageStops, Bool.or_eq_false_iff] at h
    have hne : (firstKept kept n rest).length ≠ 0 := by
      intro hzero
      rw [length_eq_zero_iff.1 hzero] at h
      cases h.2
    have := afterKept_length kept (firstKept kept n rest).length rest
    rw [pageRest]
    omega
  | response =>
    rw [pageStops, decide_eq_false_iff_not] at h
    rw [pageRest, length_drop]
    omega

/-- a flag that says whether there are more ends the pages exactly at the last one -/
theorem flag_iff (field : Option String) (left : ℕ) (flag : Bool)
    (h : named field = true → flag = decide (n < left)) :
    (field.getD "" ≠ "" && !flag) = (named field && decide (left ≤ n)) := by
  change (named field && !flag) = _
  cases hfield : named field with
  | false => rfl
  | true =>
    rw [h hfield, Bool.true_and, Bool.true_and, ← decide_not]
    simp only [not_lt]

/-! ## Pages that are kept whole -/

/-- the connector stops only at a page that is not full -/
theorem le_of_pageStops (hn : 0 < n) (rest : List Record) (hstop : pageStops m style n (fun _ => true) rest = true) :
    rest.length ≤ n := by
  have hfirst : firstKept (fun _ => true) n rest = rest.take n := filter_true _
  cases style with
  | offset =>
    rw [pageStops, offsetStops_iff, hfirst, length_take] at hstop
    omega
  | lastRecord =>
    rw [pageStops, hfirst, Bool.or_eq_true, Bool.and_eq_true, decide_eq_true_eq, List.isEmpty_iff,
      ← length_eq_zero_iff, length_take] at hstop
    omega
  | response => simpa [pageStops] using hstop

/-- when all records are kept the pages from a place on hold all from there on -/
theorem pagesWalk_all (hn : 0 < n) (rest : List Record) : pagesWalk m style n (fun _ => true) rest = rest := by
  induction hlength : rest.length using Nat.strong_induction_on generalizing rest with
  | _ length ih =>
    subst hlength
    have hfirst : firstKept (fun _ => true) n rest = rest.take n := filter_true _
    rw [pagesWalk_eq, hfirst]
    cases hstop : pageStops m style n (fun _ => true) rest with
    | true =>
      rw [if_pos rfl, take_of_length_le (le_of_pageStops m style n hn rest hstop)]
    | false =>
      rw [if_neg Bool.false_ne_true, ih _ (pageRest_lt m style n hn _ rest hstop) _ rfl]
      have hrest : pageRest style n (fun _ => true) rest = rest.drop n := by
        cases style with
        | offset =>
          rw [pageRest, hfirst, length_take]
          rcases Nat.le_total n rest.length with h | h
          · rw [Nat.min_eq_left h]
          · rw [Nat.min_eq_right h, drop_length, drop_of_length_le h]
        | lastRecord =>
          rw [pageRest, afterKept_of_all _ _ _ fun _ _ => rfl, hfirst, length_take]
          rcases Nat.le_total n rest.length with h | h
          · rw [Nat.min_eq_left h]
          · rw [Nat.min_eq_right h, drop_length, drop_of_length_le h]
        | response => rfl
      rw [hrest, take_append_drop]

/-! ## Completeness -/

/-- the records that the second request asks for, when only the first has sent `since` -/
def sentRest (after : Record → Bool) (rs : List Record) : List Record :=
  match style with
  | .offset => rs.drop (firstKept (fun _ => true) n (rs.filter after)).length
  | .lastRecord => afterKept after (firstKept (fun _ => true) n (rs.filter after)).length rs
  | .response => afterKept after n rs

/-- when the pages hold exactly the records at or after `since` -/
def Complete (mode : SinceMode) (after : Record → Bool) (rs : List Record) : Prop :=
  match mode with
  | .ignored => ∀ r ∈ rs, after r = true
  | .filtered =>
    match style with
    | .offset => offsetSafe after (named m.pagination.responseIsLastField) (named m.pagination.responseTotalField) n rs
    | .lastRecord => gapFree after n 0 rs = true
    | .response => True
  | .sent =>
    match style with
    | .offset => (rs.filter after).length < n ∨
        ((rs.filter after).length = n ∧
          (named m.pagination.responseIsLastField = true ∨ named m.pagination.responseTotalField = true)) ∨
        ∀ r ∈ rs, after r = true
    | .lastRecord => rs.filter after = [] ∨
        (named m.pagination.responseHasMoreField = true ∧ (rs.filter after).length ≤ n) ∨
        ∀ r ∈ afterKept after (min n (rs.filter after).length) rs, after r = true
    | .response => (rs.filter after).length ≤ n ∨ ∀ r ∈ afterKept after n rs, after r = true

/-- where `since` is sent with the first request only -/
theorem sent_iff (hn : 0 < n) (after : Record → Bool) (rs : List Record) :
    ((rs.filter after).take n ++
      if pageStops m style n (fun _ => true) (rs.filter after) then [] else sentRest style n after rs) =
        rs.filter after ↔ Complete m style n .sent after rs := by
  have hfirst : firstKept (fun _ => true) n (rs.filter after) = (rs.filter after).take n := filter_true _
  cases hstop : pageStops m style n (fun _ => true) (rs.filter after) with
  | true =>
    have hle := le_of_pageStops m style n hn _ hstop
    rw [if_pos rfl, append_nil, take_of_length_le hle]
    refine iff_of_true rfl ?_
    cases style with
    | offset =>
      rw [pageStops, offsetStops_iff, hfirst, length_take] at hstop
      by_cases hfull : (rs.filter after).length = n
      · refine .inr (.inl ⟨hfull, ?_⟩)
        rcases hstop with h | h | h | h
        · exact .inl h.1
        · exact .inr h.1
        · omega
        · omega
      · exact .inl (by omega)
    | lastRecord =>
      rw [pageStops, hfirst, Bool.or_eq_true, Bool.and_eq_true, decide_eq_true_eq, List.isEmpty_iff,
        ← length_eq_zero_iff, length_take] at hstop
      rcases hstop with h | h
      · exact .inr (.inl h)
      · exact .inl (length_eq_zero_iff.1 (by omega))
    | response => exact .inl hle
  | false =>
    rw [if_neg Bool.false_ne_true]
    have hcancel : (rs.filter after).take n ++ sentRest style n after rs = rs.filter after ↔
        sentRest style n after rs = (rs.filter after).drop n := by
      have hsplit := take_append_drop n (rs.filter after)
      constructor
      · exact fun h => append_cancel_left (h.trans hsplit.symm)
      · exact fun h => by rw [h, hsplit]
    rw [hcancel]
    cases style with
    | offset =>
      rw [pageStops, ← Bool.not_eq_true, offsetStops_iff, hfirst, length_take] at hstop
      have hfull : n ≤ (rs.filter after).length := by
        by_contra hshort
        apply hstop
        cases named m.pagination.responseTotalField with
        | true => exact .inr (.inl ⟨rfl, by omega⟩)
        | false => exact .inr (.inr (.inr ⟨rfl, by omega⟩))
      rw [sentRest, hfirst, length_take, Nat.min_eq_left hfull]
      constructor
      · intro h
        have hlength := congrArg List.length h
        rw [length_drop, length_drop] at hlength
        have hle := length_filter_le after rs
        refine .inr (.inr (length_filter_eq_length_iff.1 ?_))
        omega
      · rintro (h | ⟨h, hlast | htotal⟩ | h)
        · omega
        · exact absurd (.inl ⟨hlast, by omega⟩) hstop
        · exact absurd (.inr (.inl ⟨htotal, by omega⟩)) hstop
        · rw [filter_eq_self.2 h]
    | lastRecord =>
      rw [pageStops, hfirst, Bool.or_eq_false_iff, Bool.and_eq_false_iff, decide_eq_false_iff_not,
        isEmpty_eq_false_iff] at hstop
      have hmin : (rs.filter after).drop n = (afterKept after (min n (rs.filter after).length) rs).filter after := by
        rw [filter_afterKept]
        rcases Nat.le_total n (rs.filter after).length with h | h
        · rw [Nat.min_eq_left h]
        · rw [Nat.min_eq_right h, drop_length, drop_of_length_le h]
      rw [sentRest, hfirst, length_take, hmin, eq_comm, filter_eq_self]
      constructor
      · exact fun h => .inr (.inr h)
      · rintro (h | ⟨hmore, hle⟩ | h)
        · rw [h] at hstop
          exact absurd take_nil hstop.2
        · rcases hstop.1 with h' | h'
          · rw [hmore] at h'
            cases h'
          · exact absurd hle h'
        · exact h
    | response =>
      rw [pageStops, decide_eq_false_iff_not] at hstop
      rw [sentRest, ← filter_afterKept, eq_comm, filter_eq_self]
      exact ⟨.inr, fun h => h.resolve_left hstop⟩

/-- where `since` is not sent -/
theorem unsent_iff (hn : 0 < n) (since : Option String) (hmode : sinceMode m resource since ≠ .sent)
    (after : Record → Bool) (rs : List Record) (hdistinct : style = .offset → rs.Nodup) :
    pagesWalk m style n (keptBy m resource since after) rs = rs.filter after ↔
      Complete m style n (sinceMode m resource since) after rs := by
  by_cases hfiltered : sinceMode m resource since = .filtered
  · rw [keptBy, if_pos hfiltered, hfiltered]
    cases style with
    | offset => exact offsetWalk_eq_iff after _ _ n hn rs (hdistinct rfl)
    | lastRecord => exact lastWalk_eq_iff after _ n rs
    | response => exact iff_of_true rfl trivial
  · have hignored : sinceMode m resource since = .ignored := by
      cases h : sinceMode m resource since with
      | ignored => rfl
      | filtered => exact absurd h hfiltered
      | sent => exact absurd h hmode
    rw [keptBy, if_neg hfiltered, hignored, pagesWalk_all m style n hn, eq_comm, filter_eq_self]
    rfl

end Pages

end Langbridge.Connectors
