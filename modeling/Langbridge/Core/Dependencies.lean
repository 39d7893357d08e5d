/-
Things that depend on others, and orders in which each comes after its dependencies.

Main results: `acyclic_of_dependsFirst`, `exists_ready`.
-/
import Mathlib.Data.Finite.Defs
import Mathlib.Order.WellFounded
import Mathlib.Tactic

namespace Langbridge.Core

open List

variable {α : Type} (deps : α → List α)

/-- no chain of dependencies leads back to where it began -/
def Acyclic : Prop := ∀ x, ¬Relation.TransGen (fun a b => b ∈ deps a) x x

/-- every element of the list comes after its dependencies -/
def DependsFirst (l : List α) : Prop := ∀ before x after, l = before ++ x :: after → ∀ d ∈ deps x, d ∈ before

theorem dependsFirst_nil : DependsFirst deps [] := by
  intro before x after h
  simp at h

/-- elements whose dependencies are all in the list can follow it -/
theorem DependsFirst.append {l more : List α} (h : DependsFirst deps l)
    (hmore : ∀ x ∈ more, ∀ d ∈ deps x, d ∈ l) : DependsFirst deps (l ++ more) := by
  intro before x after hsplit d hd
  rcases append_eq_append_iff.1 hsplit with ⟨rest, hbefore, hafter⟩ | ⟨rest, hl, hafter⟩
  · have hx : x ∈ more := by
      rw [hafter]
      exact mem_append_right rest mem_cons_self
    rw [hbefore]
    exact mem_append_left rest (hmore x hx d hd)
  · cases rest with
    | nil =>
      rw [append_nil] at hl
      rw [nil_append] at hafter
      rw [← hl]
      exact hmore x (hafter ▸ mem_cons_self) d hd
    | cons y rest =>
      obtain ⟨rfl, -⟩ := hafter
      exact h before x rest hl d hd

/-- a chain of dependencies leads to what comes before -/
theorem DependsFirst.mem_of_chain {l : List α} (h : DependsFirst deps l) {x y : α}
    (hchain : Relation.TransGen (fun a b => b ∈ deps a) x y) :
    ∀ before after, l = before ++ x :: after → y ∈ before := by
  induction hchain with
  | single hy => exact fun before after hl => h before x after hl _ hy
  | tail _ hy ih =>
    intro before after hl
    obtain ⟨p, q, hpq⟩ := append_of_mem (ih before after hl)
    have hbefore := h p _ (q ++ x :: after) (by rw [hl, hpq, append_assoc, cons_append]) _ hy
    rw [hpq]
    exact mem_append_left _ hbefore

/-- **No cycle**, where everything that has dependencies is listed, once, and after them. -/
theorem acyclic_of_dependsFirst {l : List α} (h : DependsFirst deps l) (hnodup : l.Nodup)
    (hlisted : ∀ x, deps x ≠ [] → x ∈ l) : Acyclic deps := by
  intro x hchain
  have hdeps : deps x ≠ [] := by
    obtain ⟨y, hy, -⟩ := (Relation.TransGen.head'_iff).1 hchain
    exact ne_nil_of_mem hy
  obtain ⟨before, after, hl⟩ := append_of_mem (hlisted x hdeps)
  have hbefore := h.mem_of_chain deps hchain before after hl
  rw [hl] at hnodup
  exact disjoint_of_nodup_append hnodup hbefore mem_cons_self

/-- **Something is ready**: of listed things without a cycle one depends on no listed one. -/
theorem exists_ready (hacyclic : Acyclic deps) (l : List α) (hne : l ≠ []) : ∃ x ∈ l, ∀ d ∈ deps x, d ∉ l := by
  let below : {x // x ∈ l} → {x // x ∈ l} → Prop := fun a b => Relation.TransGen (fun a b => b ∈ deps a) b.1 a.1
  have hfinite : Finite {x // x ∈ l} := finite_toSet l
  have hirrefl : Std.Irrefl below := ⟨fun a => hacyclic a.1⟩
  have hwf : WellFounded below := Finite.wellFounded_of_trans_of_irrefl below
  obtain ⟨y, hy⟩ := exists_mem_of_ne_nil l hne
  obtain ⟨⟨x, hx⟩, -, hmin⟩ := hwf.has_min Set.univ ⟨⟨y, hy⟩, trivial⟩
  exact ⟨x, hx, fun d hd hdl => hmin ⟨d, hdl⟩ trivial (Relation.TransGen.single hd)⟩

end Langbridge.Core
