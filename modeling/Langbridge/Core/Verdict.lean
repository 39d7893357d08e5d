/-
How a computation ends that may refuse its input or break on it. Verdicts are multiplied in the order of the checks: the
first one that is not fine decides. The verdict of a computation that is put together from others is the product of
theirs, so that a program is judged by the list of its checks.

Main results: `judge_bind`, `judge_mapM`, `prod_eq_fine_iff`, `prod_eq`.
-/
import Mathlib.Tactic

namespace Langbridge.Core

open List

inductive Verdict
  | fine | refused | broken
deriving DecidableEq

namespace Verdict

/-- the first verdict, unless it is fine -/
def andThen : Verdict → Verdict → Verdict
  | .fine, v => v
  | v, _ => v

instance : Monoid Verdict where
  mul := andThen
  one := .fine
  one_mul _ := rfl
  mul_one v := by cases v <;> rfl
  mul_assoc u v w := by cases u <;> rfl

@[simp] theorem one_eq : (1 : Verdict) = .fine := rfl

@[simp] theorem fine_mul (v : Verdict) : .fine * v = v := rfl

@[simp] theorem refused_mul (v : Verdict) : .refused * v = .refused := rfl

@[simp] theorem broken_mul (v : Verdict) : .broken * v = .broken := rfl

theorem mul_eq_fine_iff {u v : Verdict} : u * v = .fine ↔ u = .fine ∧ v = .fine := by
  cases u <;> simp

/-- a check whose failure is a refusal -/
def refusedUnless (ok : Bool) : Verdict := if ok then .fine else .refused

/-- a check whose failure is not -/
def brokenUnless (ok : Bool) : Verdict := if ok then .fine else .broken

/-! ## Lists of checks -/

theorem prod_eq_fine_iff (l : List Verdict) : l.prod = .fine ↔ ∀ v ∈ l, v = .fine := by
  induction l with
  | nil => simp
  | cons v l ih => rw [prod_cons, mul_eq_fine_iff, ih, forall_mem_cons]

/-- **The first verdict that is not fine** decides. -/
theorem prod_eq (l : List Verdict) : l.prod = (l.find? (· ≠ .fine)).getD .fine := by
  induction l with
  | nil => rfl
  | cons v l ih =>
    rw [prod_cons]
    cases v with
    | fine =>
      rw [fine_mul, ih]
      rfl
    | refused => rfl
    | broken => rfl

/-! ## Computations -/

variable {ε α β : Type} (refusal : ε → Prop) [DecidablePred refusal]

def judge : Except ε α → Verdict
  | .ok _ => .fine
  | .error e => if refusal e then .refused else .broken

@[simp] theorem judge_ok (a : α) : judge refusal (.ok a) = .fine := rfl

theorem judge_error (e : ε) : judge refusal (.error e : Except ε α) = if refusal e then .refused else .broken := rfl

theorem judge_eq_fine_iff (x : Except ε α) : judge refusal x = .fine ↔ ∃ a, x = .ok a := by
  cases x with
  | ok a => simp
  | error e =>
    rw [judge_error]
    split_ifs <;> simp

theorem judge_ne_broken_iff (x : Except ε α) : judge refusal x ≠ .broken ↔ ∀ e, x = .error e → refusal e := by
  cases x with
  | ok a => simp
  | error e =>
    rw [judge_error]
    split_ifs with he <;> simp [he]

/-- a computation that refuses wherever it fails -/
theorem judge_of_refusal {x : Except ε α} (h : ∀ e, x = .error e → refusal e) :
    judge refusal x = refusedUnless x.isOk := by
  cases x with
  | ok a => rfl
  | error e => rw [judge_error, if_pos (h e rfl)]; rfl

@[simp] theorem judge_map (x : Except ε α) (f : α → β) : judge refusal (x.map f) = judge refusal x := by
  cases x <;> rfl

/-- **A sequence**, where the verdict of what follows is known. -/
theorem judge_bind {x : Except ε α} {f : α → Except ε β} {v : Verdict}
    (h : ∀ a, x = .ok a → judge refusal (f a) = v) : judge refusal (x >>= f) = judge refusal x * v := by
  cases x with
  | ok a => exact h a rfl
  | error e =>
    change judge refusal (.error e : Except ε β) = judge refusal (.error e : Except ε α) * v
    rw [judge_error, judge_error]
    split_ifs <;> rfl

/-- **A loop** -/
theorem judge_mapM (f : α → Except ε β) (l : List α) :
    judge refusal (l.mapM f) = (l.map fun a => judge refusal (f a)).prod := by
  induction l with
  | nil => rfl
  | cons a l ih =>
    rw [mapM_cons, map_cons, prod_cons, ← ih]
    apply judge_bind
    intro b _
    calc judge refusal (l.mapM f >>= fun bs => pure (b :: bs))
        = judge refusal (l.mapM f) * 1 := judge_bind refusal fun bs _ => rfl
      _ = judge refusal (l.mapM f) := mul_one _

end Verdict

end Langbridge.Core
