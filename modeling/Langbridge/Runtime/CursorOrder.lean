/-
Which of some cursors is the newest (`ConnectorSyncRuntime._pick_newer_cursor`), taken over a sequence of them. Two
cursors are compared as numbers if both are digits, and as texts otherwise; of two numbers the larger is written anew.
-/
import Langbridge.Runtime.SyncRows
import Mathlib.Data.String.Basic

namespace Langbridge.Runtime.CursorOrder

open List Option

variable (V : Values)

/-- the newest of a sequence; `none` outside is an error, and inside no cursor -/
def foldCursors (cursors : List String) : Option (Option String) :=
  cursors.foldlM (fun current cursor => pickNewerCursor V current (some cursor)) none

/-- one order of the cursors in a set, of which every sequence yields the greatest -/
structure Yields (A : Set String) (le : String → String → Prop) : Prop where
  total : ∀ a ∈ A, ∀ b ∈ A, le a b ∨ le b a
  antisymm : ∀ a ∈ A, ∀ b ∈ A, le a b → le b a → a = b
  trans : ∀ a ∈ A, ∀ b ∈ A, ∀ c ∈ A, le a b → le b c → le a c
  greatest : ∀ cursors ≠ [], (∀ a ∈ cursors, a ∈ A) →
    ∃ m ∈ cursors, foldCursors V cursors = some (some m) ∧ ∀ a ∈ cursors, le a m

/-- Cursors that are digits are the texts of numbers, and every other one stands on the same side of two of them as far
as their order as numbers allows. -/
structure Comparable (A : Set String) : Prop where
  nonempty : ∀ a ∈ A, a ≠ ""
  canonical : ∀ a ∈ A, CanonicalDigits V a
  between : ∀ a ∈ A, ∀ b ∈ A, ∀ t ∈ A, ∀ m n, V.isdigit a = true → V.isdigit b = true → V.isdigit t = false →
    V.int a = some m → V.int b = some n → m ≤ n → b < t → a < t

/-- numbers in their order, and other cursors in that of their texts -/
def older (a b : String) : Prop :=
  if V.isdigit a ∧ V.isdigit b then (V.int a).getD 0 ≤ (V.int b).getD 0 else a ≤ b

variable {V} {A : Set String} {a b c : String}

theorem foldCursors_pair (ha : a ≠ "") : foldCursors V [a, b] = pickNewerCursor V (some a) (some b) := by
  simp [foldCursors, pickNewerCursor, ha]

theorem pick_digits (ha : a ≠ "") (hb : b ≠ "") {m n : ℕ} (hda : V.isdigit a = true) (hdb : V.isdigit b = true)
    (hm : V.int a = some m) (hn : V.int b = some n) :
    pickNewerCursor V (some a) (some b) = some (some (toString (max m n))) := by
  simp [pickNewerCursor, ha, hb, hda, hdb, hm, hn]

theorem pick_texts (ha : a ≠ "") (hb : b ≠ "") (h : ¬(V.isdigit a = true ∧ V.isdigit b = true)) :
    pickNewerCursor V (some a) (some b) = some (some (max a b)) := by
  rw [← Bool.and_eq_true] at h
  rw [pickNewerCursor, getD_some, getD_some, if_neg hb, if_neg ha, if_neg h, max_def_lt]

theorem exists_int (h : Comparable V A) (ha : a ∈ A) (hdigit : V.isdigit a = true) :
    ∃ n, V.int a = some n ∧ toString n = a := h.canonical a ha hdigit

theorem older_total (a b : String) : older V a b ∨ older V b a := by
  unfold older
  split_ifs
  · exact Nat.le_total _ _
  · tauto
  · tauto
  · exact le_total a b

theorem older_antisymm (h : Comparable V A) (ha : a ∈ A) (hb : b ∈ A) (hab : older V a b) (hba : older V b a) :
    a = b := by
  unfold older at hab hba
  split_ifs at hab hba with hdigits hdigits'
  · obtain ⟨m, hm, rfl⟩ := exists_int h ha hdigits.1
    obtain ⟨n, hn, rfl⟩ := exists_int h hb hdigits.2
    rw [hm, hn, getD_some, getD_some] at hab hba
    rw [Nat.le_antisymm hab hba]
  · tauto
  · tauto
  · exact le_antisymm hab hba

theorem older_trans (h : Comparable V A) (ha : a ∈ A) (hb : b ∈ A) (hc : c ∈ A) (hab : older V a b)
    (hbc : older V b c) : older V a c := by
  have hint : ∀ x ∈ A, V.isdigit x = true → V.int x = some ((V.int x).getD 0) := by
    intro x hx hdigit
    obtain ⟨n, hn, -⟩ := exists_int h hx hdigit
    rw [hn]
    rfl
  unfold older at *
  cases hda : V.isdigit a <;> cases hdb : V.isdigit b <;> cases hdc : V.isdigit c <;> simp [hda, hdb, hdc] at hab hbc ⊢
  · exact hab.trans hbc
  · exact hab.trans hbc
  · exact hab.trans hbc
  · -- a text below the smaller number is below the larger one
    by_contra hlt
    exact absurd (h.between b hb c hc a ha _ _ hdb hdc hda (hint b hb hdb) (hint c hc hdc) hbc (not_le.1 hlt))
      (not_lt.2 hab)
  · exact hab.trans hbc
  · by_contra hlt
    have hne : a ≠ b := fun heq => by rw [heq, hdb] at hda; cases hda
    exact absurd (h.between c hc a ha b hb _ _ hdc hda hdb (hint c hc hdc) (hint a ha hda) (not_le.1 hlt).le
      (lt_of_le_of_ne hab hne)) (not_lt.2 hbc)
  · have hne : b ≠ c := fun heq => by rw [heq, hdc] at hdb; cases hdb
    exact (h.between a ha b hb c hc _ _ hda hdb hdc (hint a ha hda) (hint b hb hdb) hab (lt_of_le_of_ne hbc hne)).le
  · exact hab.trans hbc

/-- one step yields the newer of two cursors -/
theorem pickNewerCursor_older (h : Comparable V A) (ha : a ∈ A) (hb : b ∈ A) :
    ∃ m, (m = a ∨ m = b) ∧ pickNewerCursor V (some a) (some b) = some (some m) ∧ older V a m ∧ older V b m := by
  have hrefl : ∀ x, older V x x := fun x => (older_total x x).elim id id
  by_cases hdigits : V.isdigit a = true ∧ V.isdigit b = true
  · obtain ⟨m, hm, hma⟩ := exists_int h ha hdigits.1
    obtain ⟨n, hn, hnb⟩ := exists_int h hb hdigits.2
    have hpick := pick_digits (h.nonempty a ha) (h.nonempty b hb) hdigits.1 hdigits.2 hm hn
    rcases Nat.le_total m n with hle | hle
    · rw [Nat.max_eq_right hle, hnb] at hpick
      exact ⟨b, .inr rfl, hpick, by simp [older, hdigits, hm, hn, hle], hrefl b⟩
    · rw [Nat.max_eq_left hle, hma] at hpick
      exact ⟨a, .inl rfl, hpick, hrefl a, by simp [older, hdigits, hm, hn, hle]⟩
  · have hpick := pick_texts (h.nonempty a ha) (h.nonempty b hb) hdigits
    rcases le_total a b with hle | hle
    · rw [max_eq_right hle] at hpick
      exact ⟨b, .inr rfl, hpick, by rwa [older, if_neg hdigits], hrefl b⟩
    · rw [max_eq_left hle] at hpick
      exact ⟨a, .inl rfl, hpick, hrefl a, by rwa [older, if_neg fun hba => hdigits hba.symm]⟩

/-- a run from a cursor yields the newest of it and those of the run -/
theorem foldlM_older (h : Comparable V A) (cursors : List String) (hmem : ∀ c ∈ cursors, c ∈ A) (ha : a ∈ A) :
    ∃ m ∈ a :: cursors, cursors.foldlM (fun current c => pickNewerCursor V current (some c)) (some a) = some (some m) ∧
      ∀ c ∈ a :: cursors, older V c m := by
  induction cursors generalizing a with
  | nil => exact ⟨a, mem_singleton_self a, rfl, forall_mem_singleton.2 ((older_total a a).elim id id)⟩
  | cons b cursors ih =>
    obtain ⟨hb, hmem⟩ := forall_mem_cons.1 hmem
    obtain ⟨m, hm, hpick, ham, hbm⟩ := pickNewerCursor_older h ha hb
    have hmA : m ∈ A := by rcases hm with rfl | rfl <;> assumption
    obtain ⟨n, hn, hrun, hle⟩ := ih hmem hmA
    have hmn := hle m mem_cons_self
    have hnA : n ∈ A := (forall_mem_cons.2 ⟨hmA, hmem⟩) n hn
    refine ⟨n, by rcases hm with rfl | rfl <;> simp at hn ⊢ <;> tauto, by rw [foldlM_cons, hpick]; exact hrun, ?_⟩
    refine forall_mem_cons.2 ⟨older_trans h ha hmA hnA ham hmn, forall_mem_cons.2 ⟨?_, fun c hc => ?_⟩⟩
    · exact older_trans h hb hmA hnA hbm hmn
    · exact hle c (mem_cons_of_mem m hc)

/-- **The newest cursor** is the greatest of one order exactly where the cursors are comparable. -/
theorem newest_iff (V : Values) (A : Set String) : (∃ le, Yields V A le) ↔ Comparable V A := by
  constructor
  · rintro ⟨le, h⟩
    have hnonempty : ∀ a ∈ A, a ≠ "" := by
      rintro _ ha rfl
      obtain ⟨m, -, hfold, -⟩ := h.greatest [""] (cons_ne_nil _ _) (forall_mem_singleton.2 ha)
      cases hfold
    have hpair : ∀ a ∈ A, ∀ b ∈ A, ∃ m, (m = a ∨ m = b) ∧ pickNewerCursor V (some a) (some b) = some (some m) ∧
        le a m ∧ le b m := by
      intro a ha b hb
      obtain ⟨m, hm, hfold, hle⟩ := h.greatest [a, b] (cons_ne_nil _ _) (by simp [ha, hb])
      rw [foldCursors_pair (hnonempty a ha)] at hfold
      exact ⟨m, by simpa using hm, hfold, hle a (by simp), hle b (by simp)⟩
    have hcanonical : ∀ a ∈ A, CanonicalDigits V a := by
      intro a ha hdigit
      obtain ⟨m, hm, hpick, -⟩ := hpair a ha a ha
      obtain rfl : m = a := hm.elim id id
      cases hint : V.int m with
      | none => simp [pickNewerCursor, hnonempty m ha, hdigit, hint] at hpick
      | some n =>
        rw [pick_digits (hnonempty m ha) (hnonempty m ha) hdigit hdigit hint hint, Nat.max_self] at hpick
        exact ⟨n, rfl, Option.some.inj (Option.some.inj hpick)⟩
    refine ⟨hnonempty, hcanonical, fun a ha b hb t ht m n hda hdb hdt hm hn hmn hbt => ?_⟩
    have hwins : ∀ {x y z : String}, x ∈ A → y ∈ A → pickNewerCursor V (some x) (some y) = some (some z) →
        le x z ∧ le y z := by
      intro x y z hx hy hpick
      obtain ⟨w, -, hpick', hle⟩ := hpair x hx y hy
      rw [hpick, Option.some.injEq, Option.some.injEq] at hpick'
      exact hpick' ▸ hle
    obtain ⟨k, hk, hkb⟩ := hcanonical b hb hdb
    obtain rfl : k = n := Option.some.inj (hk.symm.trans hn)
    have hab : le a b := by
      have hpick := pick_digits (hnonempty a ha) (hnonempty b hb) hda hdb hm hn
      rw [Nat.max_eq_right hmn, hkb] at hpick
      exact (hwins ha hb hpick).1
    have hbt' : le b t := by
      have hpick := pick_texts (hnonempty b hb) (hnonempty t ht) (fun hd => by rw [hdt] at hd; cases hd.2)
      rw [max_eq_right hbt.le] at hpick
      exact (hwins hb ht hpick).1
    by_contra hlt
    have hta : le t a := by
      have hpick := pick_texts (hnonempty t ht) (hnonempty a ha) (fun hd => by rw [hdt] at hd; cases hd.1)
      rw [max_eq_right (not_lt.1 hlt)] at hpick
      exact (hwins ht ha hpick).1
    obtain rfl := h.antisymm a ha b hb hab (h.trans b hb t ht a ha hbt' hta)
    exact hlt hbt
  · intro h
    refine ⟨older V, fun a _ b _ => older_total a b, fun a ha b hb => older_antisymm h ha hb,
      fun a ha b hb c hc => older_trans h ha hb hc, fun cursors hne hmem => ?_⟩
    obtain ⟨a, cursors, rfl⟩ := exists_cons_of_ne_nil hne
    obtain ⟨ha, hmem⟩ := forall_mem_cons.1 hmem
    obtain ⟨m, hm, hrun, hle⟩ := foldlM_older h cursors hmem ha
    refine ⟨m, hm, ?_, hle⟩
    rw [foldCursors, foldlM_cons]
    simpa [pickNewerCursor, h.nonempty a ha] using hrun

/-- **A padded number**: what is yielded is none of the cursors. -/
theorem padded : foldCursors plainValues ["08", "09"] = some (some "9") ∧
    ¬∃ le, Yields plainValues {"08", "09"} le := by
  have hrun : foldCursors plainValues ["08", "09"] = some (some "9") := by decide
  refine ⟨hrun, fun ⟨le, h⟩ => ?_⟩
  obtain ⟨m, hm, hfold, -⟩ := h.greatest ["08", "09"] (cons_ne_nil _ _) (by simp)
  rw [hrun] at hfold
  obtain rfl := Option.some.inj (Option.some.inj hfold)
  simp at hm

end Langbridge.Runtime.CursorOrder
