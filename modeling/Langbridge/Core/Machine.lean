/-
Machines that read messages and write outputs, and stop where a message ends the run.

Main results: `Along.run_inv`, `run_out_iff`.
-/
import Mathlib.Tactic

namespace Langbridge.Core

open List

/-- a step gives the outputs and, unless the run stops, the next state -/
structure Machine (σ ι ο : Type) where
  step : σ → ι → Option σ × List ο

namespace Machine

variable {σ τ ι ο : Type} (M : Machine σ ι ο) (N : Machine τ ι ο)

/-- the state after some messages, if the run goes on, and everything written -/
def run (s : σ) : List ι → Option σ × List ο
  | [] => (some s, [])
  | m :: ms =>
    match M.step s m with
    | (none, out) => (none, out)
    | (some s', out) => ((run s' ms).1, out ++ (run s' ms).2)

/-- each message with what is written in reply to it, which is nothing once the run has stopped -/
def replies : Option σ → List ι → List (ι × List ο)
  | _, [] => []
  | none, m :: ms => (m, []) :: replies none ms
  | some s, m :: ms => (m, (M.step s m).2) :: replies (M.step s m).1 ms

/-- every step of a run meets a condition on the state and the message -/
def Along (C : σ → ι → Prop) (s : σ) : List ι → Prop
  | [] => True
  | m :: ms => C s m ∧ ∀ s', (M.step s m).1 = some s' → Along C s' ms

instance decidableAlong (C : σ → ι → Prop) [∀ s m, Decidable (C s m)] : ∀ s ms, Decidable (M.Along C s ms)
  | _, [] => .isTrue trivial
  | s, m :: ms =>
    match hstep : (M.step s m).1 with
    | none => decidable_of_iff (C s m) ⟨fun h => ⟨h, fun s' hs' => by rw [hstep] at hs'; cases hs'⟩, fun h => h.1⟩
    | some t =>
      have := decidableAlong C t ms
      decidable_of_iff (C s m ∧ M.Along C t ms)
        ⟨fun h => ⟨h.1, fun s' hs' => by rw [hstep] at hs'; exact Option.some.inj hs' ▸ h.2⟩,
          fun h => ⟨h.1, h.2 t hstep⟩⟩

variable {M N}

variable {s : σ} {ms : List ι} {out : List ο}

theorem run_cons_none {m : ι} (h : M.step s m = (none, out)) : M.run s (m :: ms) = (none, out) := by
  rw [run, h]

theorem run_cons_some {s s' : σ} {m : ι} (h : M.step s m = (some s', out)) :
    M.run s (m :: ms) = ((M.run s' ms).1, out ++ (M.run s' ms).2) := by
  rw [run, h]

variable {P : σ → Prop}

theorem Along.congr {C D : σ → ι → Prop} (h : ∀ s m, C s m ↔ D s m) (s : σ) (ms : List ι) :
    M.Along C s ms ↔ M.Along D s ms := by
  induction ms generalizing s with
  | nil => exact Iff.rfl
  | cons m ms ih => exact and_congr (h s m) (forall_congr' fun s' => imp_congr_right fun _ => ih s')

/-- what the steps that meet a condition keep holds where a run of such steps has come to -/
theorem Along.run_inv {C : σ → ι → Prop}
    (hstep : ∀ s m s' out, P s → C s m → M.step s m = (some s', out) → P s') {s s' : σ}
    (hs : P s) (h : M.Along C s ms) (hrun : M.run s ms = (some s', out)) : P s' := by
  induction ms generalizing s out with
  | nil =>
    rw [run, Prod.mk.injEq, Option.some.injEq] at hrun
    exact hrun.1 ▸ hs
  | cons m ms ih =>
    obtain ⟨hm, hrest⟩ := h
    cases hnext : M.step s m with
    | mk next o =>
      cases next with
      | none =>
        rw [run_cons_none hnext] at hrun
        cases hrun
      | some t =>
        rw [run_cons_some hnext] at hrun
        have hfinal : (M.run t ms).1 = some s' := (Prod.mk.inj hrun).1
        refine ih (hstep s m t o hs hm hnext) (hrest t (by rw [hnext])) (?_ : M.run t ms = (some s', (M.run t ms).2))
        rw [← hfinal]

/-- what the steps that meet a condition write, a run of such steps writes -/
theorem Along.run_out {C : σ → ι → Prop} {Q : ο → Prop}
    (hstep : ∀ s m s', P s → C s m → (M.step s m).1 = some s' → P s')
    (hout : ∀ s m, P s → C s m → ∀ o ∈ (M.step s m).2, Q o) (hs : P s) (h : M.Along C s ms) :
    ∀ o ∈ (M.run s ms).2, Q o := by
  induction ms generalizing s with
  | nil => exact fun o ho => (not_mem_nil ho).elim
  | cons m ms ih =>
    obtain ⟨hm, hrest⟩ := h
    have hfirst := hout s m hs hm
    cases hnext : M.step s m with
    | mk next out =>
      rw [hnext] at hfirst
      cases next with
      | none =>
        rw [run_cons_none hnext]
        exact hfirst
      | some t =>
        rw [run_cons_some hnext]
        intro o ho
        rcases mem_append.1 ho with ho | ho
        · exact hfirst o ho
        · exact ih (hstep s m t hs hm (by rw [hnext])) (hrest t (by rw [hnext])) o ho

/-- two steps agree: they write the same, and stop together or go on in related states -/
def StepsAgree (R : σ → τ → Prop) (a : Option σ × List ο) (b : Option τ × List ο) : Prop :=
  a.2 = b.2 ∧ Option.Rel R a.1 b.1

/-- two steps differ in what they write, whatever is written after them -/
def StepsClash (a : Option σ × List ο) (b : Option τ × List ο) : Prop := ∀ o o', a.2 ++ o ≠ b.2 ++ o'

theorem run_cons_out (s : σ) (m : ι) (ms : List ι) : ∃ o, (M.run s (m :: ms)).2 = (M.step s m).2 ++ o := by
  cases hstep : M.step s m with
  | mk next out =>
    cases next with
    | none => exact ⟨[], by rw [run_cons_none hstep, append_nil]⟩
    | some s' => exact ⟨_, by rw [run_cons_some hstep]⟩

/-- **Simulation.** Where the steps that meet a condition agree and the others clash, two runs write the same if and only
if every step meets the condition. -/
theorem run_out_iff {R : σ → τ → Prop} {C : τ → ι → Prop}
    (hagree : ∀ s t m, R s t → C t m → StepsAgree R (M.step s m) (N.step t m))
    (hclash : ∀ s t m, R s t → ¬C t m → StepsClash (M.step s m) (N.step t m)) {t : τ}
    (hst : R s t) : (M.run s ms).2 = (N.run t ms).2 ↔ N.Along C t ms := by
  induction ms generalizing s t with
  | nil => exact ⟨fun _ => trivial, fun _ => rfl⟩
  | cons m ms ih =>
    rw [Along]
    by_cases hm : C t m
    · obtain ⟨hout, hrel⟩ := hagree s t m hst hm
      cases hs : M.step s m with
      | mk next out =>
        cases ht : N.step t m with
        | mk next' out' =>
          rw [hs, ht] at hout hrel
          obtain rfl : out = out' := hout
          cases hrel with
          | none =>
            rw [run_cons_none hs, run_cons_none ht]
            refine ⟨fun _ => ⟨hm, ?_⟩, fun _ => rfl⟩
            intro t' ht'
            cases ht'
          | @some s' t' hst' =>
            rw [run_cons_some hs, run_cons_some ht, append_cancel_left_eq, ih hst']
            constructor
            · intro h
              refine ⟨hm, fun t'' ht'' => ?_⟩
              cases ht''
              exact h
            · intro h
              exact h.2 t' rfl
    · refine ⟨fun h => ?_, fun h => absurd h.1 hm⟩
      obtain ⟨o, ho⟩ := run_cons_out (M := M) s m ms
      obtain ⟨o', ho'⟩ := run_cons_out (M := N) t m ms
      rw [ho, ho'] at h
      exact absurd h (hclash s t m hst hm o o')

end Machine

end Langbridge.Core
