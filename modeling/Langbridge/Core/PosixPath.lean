/-
Paths of files as their components (`pathlib.PurePosixPath`): joining a path and a text appends the components of the
text, of which `pathlib` drops the empty ones and `.`; a text that starts at the root replaces the path.
-/
import Mathlib.Tactic

namespace Langbridge.Core

open List

structure PosixPath where
  absolute : Bool
  parts : List String
deriving DecidableEq

namespace PosixPath

/-- the components that `pathlib` keeps -/
def kept (l : List String) : List String := l.filter fun s => s ≠ "" ∧ s ≠ "."

def div (p : PosixPath) (segment : String) : PosixPath :=
  let parts := kept ((segment.toList.splitOn '/').map String.ofList)
  if segment.toList.head? = some '/' then ⟨true, parts⟩ else ⟨p.absolute, p.parts ++ parts⟩

/-- `path.joinpath(*segments)` -/
def joins (p : PosixPath) (segments : List String) : PosixPath := segments.foldl div p

/-- `p` is below `base`, also when a component `..` means the directory above -/
def Below (base p : PosixPath) : Prop :=
  ∃ rest, rest ≠ [] ∧ ".." ∉ rest ∧ p = ⟨base.absolute, base.parts ++ rest⟩

theorem kept_cons (s : String) (l : List String) : kept (s :: l) = kept [s] ++ kept l :=
  filter_append [s] l

theorem kept_append (l l' : List String) : kept (l ++ l') = kept l ++ kept l' := filter_append l l'

/-- a text without a separator is one component -/
theorem div_plain (p : PosixPath) {segment : String} (h : '/' ∉ segment.toList) :
    p.div segment = ⟨p.absolute, p.parts ++ kept [segment]⟩ := by
  have hsplit : (segment.toList.splitOn '/').map String.ofList = [segment] := by
    rw [splitOn_eq_singleton h, map_singleton, String.ofList_toList]
  have hhead : segment.toList.head? ≠ some '/' := fun hslash => h (mem_of_mem_head? hslash)
  rw [div, hsplit, if_neg hhead]

theorem joins_plain (p : PosixPath) {segments : List String} (h : ∀ s ∈ segments, '/' ∉ s.toList) :
    p.joins segments = ⟨p.absolute, p.parts ++ kept segments⟩ := by
  induction segments generalizing p with
  | nil => exact congrArg (PosixPath.mk p.absolute) (append_nil p.parts).symm
  | cons s l ih =>
    calc p.joins (s :: l) = (p.div s).joins l := rfl
      _ = ⟨(p.div s).absolute, (p.div s).parts ++ kept l⟩ := ih _ fun s' hs' => h s' (mem_cons_of_mem _ hs')
      _ = ⟨p.absolute, p.parts ++ kept [s] ++ kept l⟩ := by rw [div_plain p (h s mem_cons_self)]
      _ = ⟨p.absolute, p.parts ++ kept (s :: l)⟩ := by rw [append_assoc, kept_cons s l]

/-- paths from one base are equal when what follows the base is -/
theorem append_inj {base : PosixPath} {l l' : List String} :
    (⟨base.absolute, base.parts ++ l⟩ : PosixPath) = ⟨base.absolute, base.parts ++ l'⟩ ↔ l = l' := by
  rw [mk.injEq, append_cancel_left_eq]
  exact and_iff_right rfl

theorem below_iff {base : PosixPath} {l : List String} (h : ".." ∉ l) :
    Below base ⟨base.absolute, base.parts ++ l⟩ ↔ l ≠ [] := by
  constructor
  · rintro ⟨rest, hrest, -, heq⟩
    rw [append_inj] at heq
    rw [heq]
    exact hrest
  · exact fun hne => ⟨l, hne, h, rfl⟩

end PosixPath

end Langbridge.Core
