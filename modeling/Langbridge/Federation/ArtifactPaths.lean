/-
Where `ArtifactStore` keeps its files (`federation/executor/artifact_store.py`): manifests under the workspace, the plan
and the stage, artifacts under the segments of their keys, each of them made safe by `_safe_segment`.

`_safe_segment` writes `_` for `..`, `/` and `\`, so that texts that differ only in these become one segment, and
`pathlib` drops empty segments and `.`.
-/
import Langbridge.Core.PosixPath
import Langbridge.Federation.StageRuns

namespace Langbridge.Federation.Artifacts

open Core List

/-! ## Safe segments -/

/-- what `_safe_segment` replaces by one character -/
inductive Piece where
  | dots
  | char (c : Char)
deriving DecidableEq

def pieces : List Char → List Piece
  | '.' :: '.' :: cs => .dots :: pieces cs
  | c :: cs => .char c :: pieces cs
  | [] => []

def Piece.text : Piece → List Char
  | .dots => ['.', '.']
  | .char c => [c]

theorem flatMap_pieces (cs : List Char) : (pieces cs).flatMap Piece.text = cs := by
  fun_induction pieces cs with
  | case1 cs ih => rw [flatMap_cons, ih]; rfl
  | case2 c cs _ ih => rw [flatMap_cons, ih]; rfl
  | case3 => rfl

theorem pieces_injective : Function.Injective pieces := by
  intro cs cs' h
  rw [← flatMap_pieces cs, h, flatMap_pieces]

/-- `..`, `/`, `\` and `_` -/
def Piece.merged : Piece → Bool
  | .dots => true
  | .char c => c = '/' || c = '\\' || c = '_'

def Piece.safe : Piece → Char
  | .dots => '_'
  | .char c => if c = '/' ∨ c = '\\' then '_' else c

theorem safe_char (c : Char) : (Piece.char c).safe = if c = '/' ∨ c = '\\' then '_' else c := rfl

/-- pieces that `_safe_segment` does not tell apart -/
def Alike (p q : Piece) : Prop := p = q ∨ p.merged = true ∧ q.merged = true

/-- texts that differ only in `..`, `/`, `\` and `_` for one another -/
def Confused (a b : String) : Prop := List.Forall₂ Alike (pieces a.toList) (pieces b.toList)

theorem safeChars_eq (cs : List Char) : safeChars cs = (pieces cs).map Piece.safe := by
  fun_induction safeChars cs with
  | case1 cs ih =>
    rw [ih]
    rfl
  | case2 c cs hdots ih =>
    rw [pieces.eq_2 _ _ hdots, ih]
    rfl
  | case3 => rfl

theorem safe_eq_iff (p q : Piece) : p.safe = q.safe ↔ Alike p q := by
  have hmerged : ∀ p : Piece, p.merged = true → p.safe = '_' := by
    intro p hp
    cases p with
    | dots => rfl
    | char c =>
      simp only [Piece.merged, Bool.or_eq_true, decide_eq_true_eq] at hp
      rcases hp with (rfl | rfl) | rfl <;> rfl
  have hother : ∀ p : Piece, p.merged ≠ true → p = .char p.safe ∧ p.safe ≠ '_' := by
    intro p hp
    cases p with
    | dots => exact absurd rfl hp
    | char c =>
      simp only [Piece.merged, ne_eq, Bool.or_eq_true, decide_eq_true_eq, not_or] at hp
      have hsafe : (Piece.char c).safe = c := if_neg (not_or.2 hp.1)
      rw [hsafe]
      exact ⟨rfl, hp.2⟩
  constructor
  · intro h
    by_cases hp : p.merged = true
    · by_cases hq : q.merged = true
      · exact .inr ⟨hp, hq⟩
      · exact absurd (h.symm.trans (hmerged p hp)) (hother q hq).2
    · by_cases hq : q.merged = true
      · exact absurd (h.trans (hmerged q hq)) (hother p hp).2
      · rw [(hother p hp).1, (hother q hq).1, h]
        exact .inl rfl
  · rintro (rfl | ⟨hp, hq⟩)
    · rfl
    · rw [hmerged p hp, hmerged q hq]

theorem forall₂_map_eq {α β : Type} (f : α → β) (R : α → α → Prop) (h : ∀ a b, f a = f b ↔ R a b) (l l' : List α) :
    l.map f = l'.map f ↔ List.Forall₂ R l l' := by
  have hR : R = fun a b => f a = f b := funext fun a => funext fun b => propext (h a b).symm
  rw [hR, ← List.forall₂_eq_eq_eq, List.forall₂_map_left_iff, List.forall₂_map_right_iff]

/-- **What a safe segment keeps of a text** -/
theorem safeSegment_eq_iff (a b : String) : safeSegment a = safeSegment b ↔ Confused a b := by
  rw [safeSegment, safeSegment, String.ofList_inj, safeChars_eq, safeChars_eq]
  exact forall₂_map_eq _ _ safe_eq_iff _ _

theorem safe_ne_slash (p : Piece) : p.safe ≠ '/' := by
  cases p with
  | dots => decide
  | char c =>
    rw [safe_char]
    split_ifs with h
    · decide
    · exact fun hc => h (.inl hc)

theorem slash_notMem_safeSegment (a : String) : '/' ∉ (safeSegment a).toList := by
  rw [safeSegment, String.toList_ofList, safeChars_eq]
  intro hmem
  obtain ⟨p, -, hp⟩ := mem_map.1 hmem
  exact safe_ne_slash p hp

/-- a dot that stays is a single one -/
theorem safe_eq_dot {p : Piece} (h : p.safe = '.') : p = .char '.' := by
  cases p with
  | dots => exact absurd h (by decide)
  | char c =>
    rw [safe_char] at h
    split_ifs at h with hc
    · exact absurd h (by decide)
    · rw [h]

theorem pieces_ne_two_dots (cs : List Char) : pieces cs ≠ [.char '.', .char '.'] := by
  intro h
  fun_cases pieces cs with
  | case1 cs => rw [pieces] at h; cases h
  | case2 c cs hdots =>
    rw [pieces.eq_2 _ _ hdots] at h
    obtain ⟨hc, hrest⟩ := List.cons.inj h
    cases hc
    fun_cases pieces cs with
    | case1 cs => rw [pieces] at hrest; cases hrest
    | case2 c cs _ =>
      rw [pieces.eq_2 _ _ ‹_›] at hrest
      obtain ⟨hc, -⟩ := List.cons.inj hrest
      cases hc
      exact hdots cs rfl rfl
    | case3 => cases hrest
  | case3 => cases h

theorem safeSegment_ne_dots (a : String) : safeSegment a ≠ ".." := by
  intro h
  have hchars : safeChars a.toList = ['.', '.'] := by
    rw [← String.toList_ofList (l := safeChars a.toList)]
    exact congrArg String.toList h
  rw [safeChars_eq] at hchars
  obtain ⟨p, ps, hpieces, hp, hps⟩ := map_eq_cons_iff.1 hchars
  obtain ⟨q, qs, hqs, hq, hnil⟩ := map_eq_cons_iff.1 hps
  rw [map_eq_nil_iff.1 hnil] at hqs
  rw [hqs, safe_eq_dot hp, safe_eq_dot hq] at hpieces
  exact pieces_ne_two_dots _ hpieces

/-- a text is empty, or a single dot, when its safe segment is -/
theorem safeSegment_eq_short (a b : String) (hb : b = "" ∨ b = ".") : safeSegment a = b ↔ a = b := by
  have hself : safeSegment b = b := by
    rcases hb with rfl | rfl <;> rfl
  constructor
  · intro h
    have hpieces : pieces b.toList = [] ∨ pieces b.toList = [.char '.'] := by
      rcases hb with rfl | rfl
      · exact .inl rfl
      · exact .inr rfl
    have hconfused : Confused a b := (safeSegment_eq_iff a b).1 (h.trans hself.symm)
    have heq : pieces a.toList = pieces b.toList := by
      unfold Confused at hconfused
      rcases hpieces with hp | hp
      · rw [hp] at hconfused ⊢
        exact List.forall₂_nil_right_iff.1 hconfused
      · rw [hp] at hconfused ⊢
        obtain ⟨p, ps, hp, hps, hcons⟩ := List.forall₂_cons_right_iff.1 hconfused
        rw [hcons, List.forall₂_nil_right_iff.1 hps]
        rcases hp with rfl | ⟨-, hmerged⟩
        · rfl
        · exact absurd hmerged (by decide)
    exact String.toList_inj.1 (pieces_injective heq)
  · rintro rfl
    exact hself

/-! ## The files of the store -/

/-- what a manifest is stored for -/
structure StageSlot where
  workspaceId : String
  planId : String
  stageId : String
deriving DecidableEq

def manifestPath (base : PosixPath) (t : StageSlot) : PosixPath :=
  let safeWorkspace := safeSegment t.workspaceId
  let safePlan := safeSegment t.planId
  let safeStage := safeSegment t.stageId
  (((base.div safeWorkspace).div "plans").div safePlan).div (safeStage ++ ".json")

/-- `artifact_key.split("/")` -/
def keySegments (artifactKey : String) : List String := (artifactKey.toList.splitOn '/').map String.ofList

def artifactPath (base : PosixPath) (artifactKey : String) : PosixPath :=
  base.joins ((keySegments artifactKey).map safeSegment)

/-- the names that decide where a manifest is -/
def slotNames (t : StageSlot) : List String := PosixPath.kept [t.workspaceId, "plans", t.planId] ++ [t.stageId]

/-- the names that decide where an artifact is -/
def keyNames (artifactKey : String) : List String := PosixPath.kept (keySegments artifactKey)

theorem kept_map_safeSegment (l : List String) :
    PosixPath.kept (l.map safeSegment) = (PosixPath.kept l).map safeSegment := by
  unfold PosixPath.kept
  rw [filter_map]
  apply congrArg
  apply filter_congr
  intro a _
  simp only [Function.comp_apply, ne_eq, safeSegment_eq_short a "" (.inl rfl), safeSegment_eq_short a "." (.inr rfl)]

/-- the file of a manifest -/
def jsonNames (t : StageSlot) : List String :=
  (PosixPath.kept [t.workspaceId, "plans", t.planId]).map safeSegment ++ [safeSegment t.stageId ++ ".json"]

theorem manifestPath_eq (base : PosixPath) (t : StageSlot) :
    manifestPath base t = ⟨base.absolute, base.parts ++ jsonNames t⟩ := by
  have hplain : ∀ s ∈ [safeSegment t.workspaceId, "plans", safeSegment t.planId, safeSegment t.stageId ++ ".json"],
      '/' ∉ s.toList := by
    have hsafe := slash_notMem_safeSegment
    have hjson : '/' ∉ (safeSegment t.stageId ++ ".json").toList := by
      rw [String.toList_append, mem_append, not_or]
      exact ⟨hsafe _, by decide⟩
    simp only [forall_mem_cons, not_mem_nil, false_implies, implies_true, and_true]
    exact ⟨hsafe _, by decide, hsafe _, hjson⟩
  have hfile : PosixPath.kept [safeSegment t.stageId ++ ".json"] = [safeSegment t.stageId ++ ".json"] := by
    have hlength : 5 ≤ (safeSegment t.stageId ++ ".json").toList.length := by
      rw [String.toList_append, length_append]
      exact Nat.le_add_left 5 _
    apply filter_eq_self.2
    intro s hs
    obtain rfl := mem_singleton.1 hs
    rw [decide_eq_true_eq]
    constructor
    · intro hempty
      rw [hempty] at hlength
      exact absurd hlength (by decide)
    · intro hdot
      rw [hdot] at hlength
      exact absurd hlength (by decide)
  have hsplit : [safeSegment t.workspaceId, "plans", safeSegment t.planId, safeSegment t.stageId ++ ".json"] =
      [t.workspaceId, "plans", t.planId].map safeSegment ++ [safeSegment t.stageId ++ ".json"] := rfl
  calc manifestPath base t = base.joins
        [safeSegment t.workspaceId, "plans", safeSegment t.planId, safeSegment t.stageId ++ ".json"] := rfl
    _ = ⟨base.absolute, base.parts ++ jsonNames t⟩ := by
        rw [PosixPath.joins_plain base hplain, hsplit, PosixPath.kept_append, kept_map_safeSegment, hfile, jsonNames]

theorem artifactPath_eq (base : PosixPath) (artifactKey : String) :
    artifactPath base artifactKey = ⟨base.absolute, base.parts ++ (keyNames artifactKey).map safeSegment⟩ := by
  have hplain : ∀ s ∈ (keySegments artifactKey).map safeSegment, '/' ∉ s.toList := by
    intro s hs
    obtain ⟨a, -, rfl⟩ := mem_map.1 hs
    exact slash_notMem_safeSegment a
  rw [artifactPath, PosixPath.joins_plain base hplain, kept_map_safeSegment, keyNames]

theorem manifestPath_inj (base : PosixPath) (t t' : StageSlot) :
    manifestPath base t = manifestPath base t' ↔ List.Forall₂ Confused (slotNames t) (slotNames t') := by
  have hnames : ∀ l l' : List String, l.map safeSegment = l'.map safeSegment ↔ List.Forall₂ Confused l l' :=
    forall₂_map_eq safeSegment Confused safeSegment_eq_iff
  have hjson : ∀ s s' : String, s ++ ".json" = s' ++ ".json" ↔ s = s' := by
    intro s s'
    rw [← String.toList_inj, String.toList_append, String.toList_append, append_cancel_right_eq, String.toList_inj]
  have hlast : ∀ (l l' : List String) (x x' : String), l ++ [x] = l' ++ [x'] ↔ l = l' ∧ x = x' := by
    intro l l' x x'
    constructor
    · intro h
      obtain ⟨hl, hx⟩ := append_inj' h rfl
      exact ⟨hl, singleton_inj.1 hx⟩
    · rintro ⟨rfl, rfl⟩
      rfl
  rw [manifestPath_eq, manifestPath_eq, PosixPath.append_inj, ← hnames, slotNames, slotNames, map_append,
    map_append, map_singleton, map_singleton, jsonNames, jsonNames, hlast, hlast, hjson]

theorem artifactPath_inj (base : PosixPath) (k k' : String) :
    artifactPath base k = artifactPath base k' ↔ List.Forall₂ Confused (keyNames k) (keyNames k') := by
  rw [artifactPath_eq, artifactPath_eq, PosixPath.append_inj]
  exact forall₂_map_eq safeSegment Confused safeSegment_eq_iff _ _

theorem dots_notMem_map_safeSegment (l : List String) : ".." ∉ l.map safeSegment := by
  intro hmem
  obtain ⟨a, -, ha⟩ := mem_map.1 hmem
  exact safeSegment_ne_dots a ha

theorem below_manifestPath (base : PosixPath) (t : StageSlot) : PosixPath.Below base (manifestPath base t) := by
  have hdots : ".." ∉ jsonNames t := by
    unfold jsonNames
    rw [mem_append, not_or]
    refine ⟨dots_notMem_map_safeSegment _, fun hmem => ?_⟩
    have hlength := congrArg (fun s => s.toList.length) (mem_singleton.1 hmem)
    simp only [String.toList_append, length_append] at hlength
    change 2 = _ + 5 at hlength
    omega
  rw [manifestPath_eq, PosixPath.below_iff hdots]
  exact append_ne_nil_of_right_ne_nil _ (cons_ne_nil _ _)

theorem below_artifactPath_iff (base : PosixPath) (k : String) :
    PosixPath.Below base (artifactPath base k) ↔ keyNames k ≠ [] := by
  rw [artifactPath_eq, PosixPath.below_iff (dots_notMem_map_safeSegment _), ne_eq, map_eq_nil_iff]

/-- **Files of their own.** The manifests of two stages have different files, below the base directory, if and only if
workspace, plan (without an empty name or a `.`) and stage differ in more than `..`, `/`, `\` and `_` for one another;
likewise for artifacts and the segments of their keys, of which one has to be left. -/
theorem files_apart_iff (base : PosixPath) (t t' : StageSlot) (k k' : String) :
    (manifestPath base t ≠ manifestPath base t' ∧ PosixPath.Below base (manifestPath base t) ∧
        PosixPath.Below base (manifestPath base t') ↔
      ¬List.Forall₂ Confused (slotNames t) (slotNames t')) ∧
    (artifactPath base k ≠ artifactPath base k' ∧ PosixPath.Below base (artifactPath base k) ∧
        PosixPath.Below base (artifactPath base k') ↔
      ¬List.Forall₂ Confused (keyNames k) (keyNames k') ∧ keyNames k ≠ [] ∧ keyNames k' ≠ []) := by
  constructor
  · rw [ne_eq, manifestPath_inj]
    exact and_iff_left ⟨below_manifestPath base t, below_manifestPath base t'⟩
  · rw [ne_eq, artifactPath_inj, below_artifactPath_iff, below_artifactPath_iff]

/-- the tables `a/b` and `a_b` of one plan -/
theorem scans_share_manifest :
    ¬∀ (base : PosixPath) (t t' : StageSlot), t ≠ t' → manifestPath base t ≠ manifestPath base t' := by
  intro hclaim
  have hsame : safeSegment (scanStage "a/b") = safeSegment (scanStage "a_b") := by decide
  apply hclaim ⟨true, ["data"]⟩ ⟨"w", "plan_1", scanStage "a/b"⟩ ⟨"w", "plan_1", scanStage "a_b"⟩ (by decide)
  unfold manifestPath
  rw [hsame]

end Langbridge.Federation.Artifacts
