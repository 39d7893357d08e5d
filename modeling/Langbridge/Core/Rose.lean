/-
Rose trees: a label and a list of subtrees. A syntax tree whose passes look at every node is one of these; a pass is a
`map` on the labels, a reading is a `fold` or a question about `labels`, and proofs go by `Rose.induction`.
-/
import Mathlib.Tactic

namespace Langbridge.Core

open List

inductive Rose (β : Type) where
  | node (label : β) (children : List (Rose β))

namespace Rose

variable {β γ δ : Type}

def label : Rose β → β
  | node b _ => b

mutual

/-- bottom-up evaluation -/
def fold (f : β → List γ → γ) : Rose β → γ
  | node b cs => f b (foldAll f cs)

def foldAll (f : β → List γ → γ) : List (Rose β) → List γ
  | [] => []
  | t :: ts => fold f t :: foldAll f ts

end

theorem foldAll_eq_map (f : β → List γ → γ) (ts : List (Rose β)) : foldAll f ts = ts.map (fold f) := by
  induction ts with
  | nil => rfl
  | cons t ts ih => rw [foldAll, ih, map_cons]

@[simp] theorem fold_node (f : β → List γ → γ) (b : β) (cs : List (Rose β)) :
    fold f (node b cs) = f b (cs.map (fold f)) := by
  rw [fold, foldAll_eq_map]

/-- a property that passes from the subtrees to the tree holds of every tree -/
theorem induction {P : Rose β → Prop} (h : ∀ b cs, (∀ c ∈ cs, P c) → P (node b cs)) (t : Rose β) : P t := by
  refine @Rose.rec β P (fun cs => ∀ c ∈ cs, P c) h ?_ ?_ t
  · intro c hc
    exact absurd hc not_mem_nil
  · intro t ts ht hts c hc
    rcases mem_cons.1 hc with rfl | hc
    · exact ht
    · exact hts c hc

/-! ## Labels -/

/-- every label, top down -/
def labels : Rose β → List β := fold fun b ls => b :: ls.flatten

@[simp] theorem labels_node (b : β) (cs : List (Rose β)) :
    (node b cs).labels = b :: (cs.map labels).flatten := by
  simp [labels]

theorem mem_labels_node (b a : β) (cs : List (Rose β)) :
    a ∈ (node b cs).labels ↔ a = b ∨ ∃ c ∈ cs, a ∈ c.labels := by
  simp

theorem label_mem_labels (t : Rose β) : t.label ∈ t.labels := by
  cases t
  simp [label]

theorem mem_labels_of_child {b a : β} {cs : List (Rose β)} {c : Rose β} (hc : c ∈ cs) (ha : a ∈ c.labels) :
    a ∈ (node b cs).labels :=
  (mem_labels_node b a cs).2 (.inr ⟨c, hc, ha⟩)

/-- folds by functions that agree on the labels of the tree agree -/
theorem fold_congr (f g : β → List γ → γ) (t : Rose β) (h : ∀ b ∈ t.labels, ∀ l, f b l = g b l) :
    t.fold f = t.fold g := by
  induction t using induction with
  | h b cs ih =>
    rw [fold_node, fold_node, h b (by simp)]
    refine congrArg (g b) (map_congr_left fun c hc => ih c hc fun a ha => ?_)
    exact h a (mem_labels_of_child hc ha)

/-! ## Relabelling -/

/-- relabel every node -/
def map (f : β → γ) : Rose β → Rose γ := fold fun b cs => node (f b) cs

@[simp] theorem map_node (f : β → γ) (b : β) (cs : List (Rose β)) :
    (node b cs).map f = node (f b) (cs.map (map f)) := by
  simp [map]

@[simp] theorem fold_map (f : β → γ) (g : γ → List δ → δ) (t : Rose β) :
    (t.map f).fold g = t.fold fun b l => g (f b) l := by
  induction t using induction with
  | h b cs ih =>
    simp only [map_node, fold_node, List.map_map]
    exact congrArg (g (f b)) (map_congr_left fun c hc => ih c hc)

@[simp] theorem labels_map (f : β → γ) (t : Rose β) : (t.map f).labels = t.labels.map f := by
  induction t using induction with
  | h b cs ih =>
    simp only [map_node, labels_node, map_cons, map_flatten, List.map_map]
    refine congrArg (f b :: List.flatten ·) (map_congr_left fun c hc => ?_)
    exact ih c hc

theorem map_map (f : β → γ) (g : γ → δ) (t : Rose β) : (t.map f).map g = t.map (g ∘ f) := by
  rw [map, fold_map]
  rfl

theorem map_congr (f g : β → γ) (t : Rose β) (h : ∀ b ∈ t.labels, f b = g b) : t.map f = t.map g :=
  fold_congr _ _ t fun b hb l => by rw [h b hb]

@[simp] theorem map_id (t : Rose β) : t.map id = t := by
  induction t using induction with
  | h b cs ih =>
    rw [map_node]
    exact congrArg (node b) ((map_congr_left ih).trans (List.map_id cs))

/-! ## Levels -/

/-- the subtrees at depth `n`, from left to right -/
def atDepth : ℕ → Rose β → List (Rose β)
  | 0, t => [t]
  | n + 1, node _ cs => cs.flatMap (atDepth n)

/-- the number of levels -/
def height : Rose β → ℕ := fold fun _ hs => hs.foldr max 0 + 1

end Rose

end Langbridge.Core
