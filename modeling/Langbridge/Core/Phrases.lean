/-
Phrases with operators, and their texts. Whatever a construct encloses (parentheses, the arguments of a call, a clause)
is one token of a text, so that only operators are left to group. They are grouped by recursive descent: the right
operand of an operator and the operand of a prefix take the operators that bind tightly enough, the innermost operand
first.

Main results: `mapLeaves_eq_iff`, `bindLeaves_eq_some_iff`, `settled_mapLeaves`.
-/
import Mathlib.Tactic

namespace Langbridge.Core.Phrases

inductive Phrase (X L U B : Type) where
  | leaf (x : X)
  | closed (label : L) (parts : List (Phrase X L U B))
  | pre (u : U) (e : Phrase X L U B)
  | bin (b : B) (l r : Phrase X L U B)

inductive Token (X L U B : Type) where
  | leaf (x : X)
  | closed (label : L) (parts : List (List (Token X L U B)))
  | pre (u : U)
  | bin (b : B)

/-- how tightly operators bind -/
class Binding (B : Type) where
  level : B → ℕ

/-- the least level of the operators that the operand of a prefix takes -/
class Taking (U : Type) where
  least : U → ℕ

variable {X L U B : Type}

/-- a property that passes from the parts to the phrase holds of every phrase -/
theorem Phrase.induction {P : Phrase X L U B → Prop} (leaf : ∀ x, P (.leaf x))
    (closed : ∀ label parts, (∀ p ∈ parts, P p) → P (.closed label parts)) (pre : ∀ u e, P e → P (.pre u e))
    (bin : ∀ b l r, P l → P r → P (.bin b l r)) (t : Phrase X L U B) : P t := by
  refine @Phrase.rec X L U B P (fun parts => ∀ p ∈ parts, P p) leaf closed pre bin ?_ ?_ t
  · exact List.forall_mem_nil _
  · exact fun p ps hp hps => List.forall_mem_cons.2 ⟨hp, hps⟩

mutual

/-- the text of a phrase, without added parentheses -/
def print : Phrase X L U B → List (Token X L U B)
  | .leaf x => [.leaf x]
  | .closed label parts => [.closed label (printParts parts)]
  | .pre u e => .pre u :: print e
  | .bin b l r => print l ++ .bin b :: print r

def printParts : List (Phrase X L U B) → List (List (Token X L U B))
  | [] => []
  | p :: ps => print p :: printParts ps

end

section Reading

variable [Binding B] [Taking U]

open Binding Taking List Option

/-- the next operator and its right operand go to the innermost operand that takes the operator, if one does -/
def insert : Phrase X L U B → B → Phrase X L U B → Option (Phrase X L U B)
  | .leaf _, _, _ => none
  | .closed _ _, _, _ => none
  | .pre u e, b, x =>
    match insert e b x with
    | some e' => some (.pre u e')
    | none => if least u ≤ level b then some (.pre u (.bin b e x)) else none
  | .bin o l r, b, x =>
    match insert r b x with
    | some r' => some (.bin o l r')
    | none => if level o < level b then some (.bin o l (.bin b r x)) else none

/-- the next operator and its right operand -/
def attach (t : Phrase X L U B) (b : B) (x : Phrase X L U B) : Phrase X L U B := (insert t b x).getD (.bin b t x)

/-- prefixes, the innermost first -/
def wrap (us : List U) (x : Phrase X L U B) : Phrase X L U B := us.foldl (fun e u => .pre u e) x

/-- an operand after what is read so far -/
def place (left : Option (Phrase X L U B × B)) (x : Phrase X L U B) : Phrase X L U B :=
  left.elim x fun l => attach l.1 l.2 x

mutual

def enclosed : Token X L U B → Option (Phrase X L U B)
  | .leaf x => some (.leaf x)
  | .closed label parts => (readParts parts).map (.closed label)
  | _ => none
termination_by structural t => t

/-- the phrase of a text, after an operator and after prefixes -/
def group : Option (Phrase X L U B × B) → List U → List (Token X L U B) → Option (Phrase X L U B)
  | left, us, .pre u :: ts => group left (u :: us) ts
  | left, us, [t] => (enclosed t).map fun e => place left (wrap us e)
  | left, us, t :: .bin b :: ts => (enclosed t).bind fun e => group (some (place left (wrap us e), b)) [] ts
  | _, _, _ => none
termination_by structural _ _ ts => ts

def readParts : List (List (Token X L U B)) → Option (List (Phrase X L U B))
  | [] => some []
  | ts :: tss => (group none [] ts).bind fun e => (readParts tss).map (e :: ·)
termination_by structural tss => tss

end

/-- the phrase of a text -/
def read (ts : List (Token X L U B)) : Option (Phrase X L U B) := group none [] ts

/-- an operator at the root has at least this level -/
def AtLeast (k : ℕ) : Phrase X L U B → Prop
  | .bin b _ _ => k ≤ level b
  | _ => True

/-- an operand at the right end of a phrase takes the operator -/
def accepts : Phrase X L U B → B → Bool
  | .leaf _, _ => false
  | .closed _ _, _ => false
  | .pre u e, b => accepts e b || decide (least u ≤ level b)
  | .bin o _ r, b => accepts r b || decide (level o < level b)

/-- phrases whose operators are grouped as they are read -/
inductive Grouped : Phrase X L U B → Prop where
  | leaf {x} : Grouped (.leaf x)
  | closed {label parts} (h : ∀ p ∈ parts, Grouped p) : Grouped (.closed label parts)
  | pre {u e} (h : Grouped e) (hleast : AtLeast (least u) e) : Grouped (.pre u e)
  | bin {b l r} (hl : Grouped l) (hr : Grouped r) (hleft : accepts l b = false) (hright : AtLeast (level b + 1) r) :
      Grouped (.bin b l r)

theorem grouped_closed_iff {label : L} {parts : List (Phrase X L U B)} :
    Grouped (.closed label parts) ↔ ∀ p ∈ parts, Grouped p := by
  refine ⟨fun h => ?_, .closed⟩
  cases h with
  | closed h => exact h

theorem grouped_pre_iff {u : U} {e : Phrase X L U B} : Grouped (.pre u e) ↔ Grouped e ∧ AtLeast (least u) e := by
  refine ⟨fun h => ?_, fun h => .pre h.1 h.2⟩
  cases h with
  | pre h hleast => exact ⟨h, hleast⟩

variable {b : B} {l r : Phrase X L U B}

theorem grouped_bin_iff :
    Grouped (.bin b l r) ↔ Grouped l ∧ Grouped r ∧ accepts l b = false ∧ AtLeast (level b + 1) r := by
  refine ⟨fun h => ?_, fun h => .bin h.1 h.2.1 h.2.2.1 h.2.2.2⟩
  cases h with
  | bin hl hr hleft hright => exact ⟨hl, hr, hleft, hright⟩

/-! ## Attaching -/

theorem isSome_insert (t : Phrase X L U B) (b : B) (x : Phrase X L U B) : (insert t b x).isSome = accepts t b := by
  induction t using Phrase.induction with
  | leaf x => rfl
  | closed label parts => rfl
  | pre u e ih =>
    rw [insert, accepts, ← ih]
    cases insert e b x with
    | some e' => rfl
    | none => split_ifs with h <;> simp [h]
  | bin o l r _ ih =>
    rw [insert, accepts, ← ih]
    cases insert r b x with
    | some r' => rfl
    | none => split_ifs with h <;> simp [h]

variable {t x : Phrase X L U B}

theorem insert_eq_none_iff : insert t b x = none ↔ accepts t b = false := by
  rw [← not_isSome_iff_eq_none, isSome_insert, Bool.not_eq_true]

theorem attach_of_not_accepts (h : accepts t b = false) (x : Phrase X L U B) : attach t b x = .bin b t x := by
  rw [attach, insert_eq_none_iff.2 h]
  rfl

/-- what an operand at the right end of a phrase takes, the phrase takes -/
theorem insert_insert {t y y' x z : Phrase X L U B} {o b : B} (hz : insert t o y = some z)
    (hy : insert y b x = some y' ∨ (insert y b x = none ∧ level o < level b ∧ y' = .bin b y x)) :
    ∃ z', insert t o y' = some z' ∧ insert z b x = some z' := by
  -- the operator that stands before `y`
  have hbin : ∀ e : Phrase X L U B, insert (.bin o e y) b x = some (.bin o e y') := by
    intro e
    rcases hy with hy | ⟨hy, hlevel, rfl⟩
    · rw [insert, hy]
    · rw [insert, hy, if_pos hlevel]
  induction t using Phrase.induction generalizing z with
  | leaf x => cases hz
  | closed label parts => cases hz
  | pre u e ih =>
    rw [insert] at hz
    cases he : insert e o y with
    | some e' =>
      rw [he] at hz
      obtain ⟨e'', h₁, h₂⟩ := ih he
      refine ⟨.pre u e'', by rw [insert, h₁], ?_⟩
      rw [← Option.some.inj hz, insert, h₂]
    | none =>
      rw [he] at hz
      have hnone : insert e o y' = none := insert_eq_none_iff.2 (insert_eq_none_iff.1 he)
      split_ifs at hz with hleast
      refine ⟨.pre u (.bin o e y'), by rw [insert, hnone, if_pos hleast], ?_⟩
      rw [← Option.some.inj hz, insert, hbin]
  | bin p l r _ ih =>
    rw [insert] at hz
    cases hr : insert r o y with
    | some r' =>
      rw [hr] at hz
      obtain ⟨r'', h₁, h₂⟩ := ih hr
      refine ⟨.bin p l r'', by rw [insert, h₁], ?_⟩
      rw [← Option.some.inj hz, insert, h₂]
    | none =>
      rw [hr] at hz
      have hnone : insert r o y' = none := insert_eq_none_iff.2 (insert_eq_none_iff.1 hr)
      split_ifs at hz with hlevel
      refine ⟨.bin p l (.bin o r y'), by rw [insert, hnone, if_pos hlevel], ?_⟩
      rw [← Option.some.inj hz, insert, hbin]

/-! ## Reading what is printed -/

/-- the rest of a text after a phrase -/
def after (t : Phrase X L U B) : List (Token X L U B) → Option (Phrase X L U B)
  | [] => some t
  | .bin b :: ts => group (some (t, b)) [] ts
  | _ => none

/-- what a phrase stands after takes none of its operators -/
def Stands (left : Option (Phrase X L U B × B)) : List U → Phrase X L U B → Prop
  | u :: _, t => AtLeast (least u) t
  | [], t => ∀ l ∈ left, AtLeast (level l.2 + 1) t

theorem group_cons {t : Token X L U B} (ht : ∀ u, t ≠ .pre u) (left : Option (Phrase X L U B × B)) (us : List U)
    (ts : List (Token X L U B)) :
    group left us (t :: ts) = (enclosed t).bind fun e => after (place left (wrap us e)) ts := by
  cases henclosed : enclosed t with
  | none =>
    rcases t with x | ⟨l, ps⟩ | u | b
    · cases henclosed
    · rcases ts with - | ⟨y | ⟨l', ps'⟩ | u | b, ts⟩ <;> simp [group, henclosed]
    · exact absurd rfl (ht u)
    · rcases ts with - | ⟨y | ⟨l', ps'⟩ | u | o, ts⟩ <;> simp [group, henclosed]
  | some e =>
    rcases t with x | ⟨l, ps⟩ | u | b
    · rcases ts with - | ⟨y | ⟨l', ps'⟩ | u | b, ts⟩ <;> simp [group, after, henclosed]
    · rcases ts with - | ⟨y | ⟨l', ps'⟩ | u | b, ts⟩ <;> simp [group, after, henclosed]
    · exact absurd rfl (ht u)
    · cases henclosed

/-- an operator after prefixes goes to the innermost one -/
theorem insert_wrap (h : accepts t b = false) (u : U) (us : List U)
    (hu : least u ≤ level b) : insert (wrap (u :: us) t) b x = some (wrap (u :: us) (.bin b t x)) := by
  have hinner : insert (.pre u t) b x = some (.pre u (.bin b t x)) := by
    rw [insert, insert_eq_none_iff.2 h, if_pos hu]
  have houter : ∀ (vs : List U) (y z : Phrase X L U B), insert y b x = some z →
      insert (wrap vs y) b x = some (wrap vs z) := by
    intro vs
    induction vs with
    | nil => exact fun y z hyz => hyz
    | cons v vs ih => exact fun y z hyz => ih (.pre v y) (.pre v z) (by rw [insert, hyz])
  exact houter us _ _ hinner

/-- an operator after a phrase makes one phrase of it and its right operand -/
theorem attach_place (h : accepts l b = false) (left : Option (Phrase X L U B × B))
    (us : List U) (hstands : Stands left us (.bin b l r)) :
    attach (place left (wrap us l)) b r = place left (wrap us (.bin b l r)) := by
  cases left with
  | none =>
    cases us with
    | nil => exact attach_of_not_accepts h r
    | cons u us =>
      change attach (wrap (u :: us) l) b r = wrap (u :: us) (.bin b l r)
      rw [attach, insert_wrap h u us hstands]
      rfl
  | some left =>
    -- the operand goes where `l` has gone
    have hend : insert (wrap us l) b r = some (wrap us (.bin b l r)) ∨
        (insert (wrap us l) b r = none ∧ level left.2 < level b ∧ wrap us (.bin b l r) = .bin b (wrap us l) r) := by
      cases us with
      | nil => exact .inr ⟨insert_eq_none_iff.2 h, hstands left rfl, rfl⟩
      | cons u us => exact .inl (insert_wrap h u us hstands)
    change attach (attach left.1 left.2 (wrap us l)) b r = attach left.1 left.2 (wrap us (.bin b l r))
    cases hleft : insert left.1 left.2 (wrap us l) with
    | some z =>
      obtain ⟨z', h₁, h₂⟩ := insert_insert hleft hend
      rw [attach, attach, hleft, getD_some, h₂, attach, h₁]
      rfl
    | none =>
      have haccepts := insert_eq_none_iff.1 hleft
      rw [attach_of_not_accepts haccepts, attach_of_not_accepts haccepts, attach]
      rcases hend with hend | ⟨hend, hlevel, hwrap⟩
      · rw [insert, hend]
        rfl
      · rw [insert, hend, if_pos hlevel, hwrap]
        rfl

/-- an operator that the left operand does not take binds no tighter than those of the operand -/
theorem atLeast_of_not_accepts (h : accepts l b = false) : AtLeast (level b) l := by
  cases l with
  | leaf => trivial
  | closed => trivial
  | pre => trivial
  | bin o l r =>
    rw [accepts, Bool.or_eq_false_iff, decide_eq_false_iff_not] at h
    exact Nat.le_of_not_lt h.2

omit [Taking U] in
theorem AtLeast.mono {k n : ℕ} (h : AtLeast n t) (hkn : k ≤ n) : AtLeast k t := by
  cases t with
  | bin b l r => exact hkn.trans h
  | _ => trivial

theorem Stands.left {left : Option (Phrase X L U B × B)} {us : List U}
    (h : Stands left us (.bin b l r)) (hleft : accepts l b = false) : Stands left us l := by
  cases us with
  | nil => exact fun p hp => (atLeast_of_not_accepts hleft).mono (h p hp)
  | cons u us => exact (atLeast_of_not_accepts hleft).mono h

/-- a grouped phrase is read as it was printed, whatever comes before and after it -/
theorem group_print (ht : Grouped t) (left : Option (Phrase X L U B × B)) (us : List U)
    (hstands : Stands left us t) (ts : List (Token X L U B)) :
    group left us (print t ++ ts) = after (place left (wrap us t)) ts := by
  induction t using Phrase.induction generalizing left us ts with
  | leaf x => rw [print, singleton_append, group_cons (by simp), enclosed, bind_some]
  | closed label parts ih =>
    have hparts : ∀ ps : List (Phrase X L U B), (∀ p ∈ ps, p ∈ parts) → readParts (printParts ps) = some ps := by
      intro ps hps
      induction ps with
      | nil => rfl
      | cons p ps ihps =>
        rcases forall_mem_cons.1 hps with ⟨hp, hps⟩
        have hprint := ih p hp (grouped_closed_iff.1 ht p hp) none [] (fun l hl => nomatch hl) []
        rw [append_nil] at hprint
        rw [printParts, readParts, hprint, ihps hps]
        rfl
    rw [print, singleton_append, group_cons (by simp), enclosed, hparts parts fun p hp => hp]
    rfl
  | pre u e ih =>
    rcases grouped_pre_iff.1 ht with ⟨he, hleast⟩
    rw [print, cons_append, group, ih he left (u :: us) hleast]
    rfl
  | bin b l r ihl ihr =>
    obtain ⟨hl, hr, hleft, hright⟩ := grouped_bin_iff.1 ht
    have hafter : Stands (some (place left (wrap us l), b)) [] r := by
      rintro p hp
      rw [← Option.some.inj hp]
      exact hright
    rw [print, append_assoc, ihl hl left us (hstands.left hleft), cons_append, after,
      ihr hr _ [] hafter ts]
    change after (attach (place left (wrap us l)) b r) ts = _
    rw [attach_place hleft left us hstands]

/-! ## What is read -/

theorem AtLeast.insert {k : ℕ} {t x z : Phrase X L U B} (h : AtLeast k t) (hz : insert t b x = some z) :
    AtLeast k z := by
  cases t with
  | leaf x => cases hz
  | closed label parts => cases hz
  | pre u e =>
    rw [Phrases.insert] at hz
    cases he : Phrases.insert e b x with
    | some e' =>
      rw [he] at hz
      rw [← Option.some.inj hz]
      trivial
    | none =>
      rw [he] at hz
      split_ifs at hz
      rw [← Option.some.inj hz]
      trivial
  | bin o l r =>
    rw [Phrases.insert] at hz
    cases hr : Phrases.insert r b x with
    | some r' =>
      rw [hr] at hz
      rw [← Option.some.inj hz]
      exact h
    | none =>
      rw [hr] at hz
      split_ifs at hz
      rw [← Option.some.inj hz]
      exact h

theorem grouped_insert {t x z : Phrase X L U B} (ht : Grouped t) (hx : Grouped x)
    (hroot : ∀ k, AtLeast k x) (hz : insert t b x = some z) : Grouped z := by
  induction t using Phrase.induction generalizing z with
  | leaf x => cases hz
  | closed label parts => cases hz
  | pre u e ih =>
    rcases grouped_pre_iff.1 ht with ⟨he, hleast⟩
    rw [insert] at hz
    cases hinsert : insert e b x with
    | some e' =>
      rw [hinsert] at hz
      rw [← Option.some.inj hz]
      exact .pre (ih he hinsert) (hleast.insert hinsert)
    | none =>
      rw [hinsert] at hz
      split_ifs at hz with hlevel
      rw [← Option.some.inj hz]
      exact .pre (.bin he hx (insert_eq_none_iff.1 hinsert) (hroot _)) hlevel
  | bin o l r _ ih =>
    obtain ⟨hl, hr, hleft, hright⟩ := grouped_bin_iff.1 ht
    rw [insert] at hz
    cases hinsert : insert r b x with
    | some r' =>
      rw [hinsert] at hz
      rw [← Option.some.inj hz]
      exact .bin hl (ih hr hinsert) hleft (hright.insert hinsert)
    | none =>
      rw [hinsert] at hz
      split_ifs at hz with hlevel
      rw [← Option.some.inj hz]
      exact .bin hl (.bin hr hx (insert_eq_none_iff.1 hinsert) (hroot _)) hleft hlevel

theorem grouped_attach (ht : Grouped t) (hx : Grouped x) (hroot : ∀ k, AtLeast k x) : Grouped (attach t b x) := by
  cases hinsert : insert t b x with
  | some z =>
    rw [attach, hinsert]
    exact grouped_insert ht hx hroot hinsert
  | none =>
    rw [attach, hinsert]
    exact .bin ht hx (insert_eq_none_iff.1 hinsert) (hroot _)

theorem grouped_wrap (us : List U) (hx : Grouped x) (hroot : ∀ k, AtLeast k x) :
    Grouped (wrap us x) ∧ ∀ k, AtLeast k (wrap us x) := by
  induction us generalizing x with
  | nil => exact ⟨hx, hroot⟩
  | cons u us ih => exact ih (.pre hx (hroot _)) fun _ => trivial

theorem grouped_place {left : Option (Phrase X L U B × B)} {us : List U}
    (hleft : ∀ l ∈ left, Grouped l.1) (hx : Grouped x) (hroot : ∀ k, AtLeast k x) :
    Grouped (place left (wrap us x)) := by
  rcases grouped_wrap us hx hroot with ⟨hwrap, hwrapRoot⟩
  cases left with
  | none => exact hwrap
  | some l => exact grouped_attach (hleft l rfl) hwrap hwrapRoot

/-- what is read from the rest of a text is grouped -/
def ReadsGrouped (ts : List (Token X L U B)) : Prop :=
  (∀ left us e, (∀ l ∈ left, Grouped l.1) → group left us ts = some e → Grouped e) ∧
    ∀ t e, Grouped t → after t ts = some e → Grouped e

theorem readsGrouped_nil : ReadsGrouped ([] : List (Token X L U B)) := by
  constructor
  · intro left us e _ h
    cases h
  · intro t e ht h
    rw [← Option.some.inj h]
    exact ht

theorem readsGrouped_cons {t : Token X L U B} {ts : List (Token X L U B)}
    (ht : ∀ e, enclosed t = some e → Grouped e ∧ ∀ k, AtLeast k e) (hts : ReadsGrouped ts) :
    ReadsGrouped (t :: ts) := by
  refine ⟨fun left us e hleft h => ?_, fun x e hx h => ?_⟩
  · by_cases hpre : ∃ u, t = .pre u
    · obtain ⟨u, rfl⟩ := hpre
      exact hts.1 left (u :: us) e hleft h
    · rw [group_cons fun u hu => hpre ⟨u, hu⟩] at h
      obtain ⟨x, hx, h⟩ := bind_eq_some_iff.1 h
      exact hts.2 _ e (grouped_place hleft (ht x hx).1 (ht x hx).2) h
  · cases t with
    | bin b =>
      refine hts.1 _ [] e (fun l hl => ?_) h
      rw [← Option.some.inj hl]
      exact hx
    | leaf y => cases h
    | pre u => cases h
    | closed label parts => cases h

theorem readsGrouped (ts : List (Token X L U B)) : ReadsGrouped ts := by
  refine @Token.rec_2 X L U B (fun t => ∀ e, enclosed t = some e → Grouped e ∧ ∀ k, AtLeast k e)
    (fun tss => ∀ es, readParts tss = some es → ∀ e ∈ es, Grouped e) ReadsGrouped
    ?_ ?_ ?_ ?_ ?_ ?_ readsGrouped_nil (fun t ts => readsGrouped_cons) ts
  · intro x e h
    rw [← Option.some.inj h]
    exact ⟨.leaf, fun _ => trivial⟩
  · intro label parts hparts e h
    obtain ⟨es, hes, rfl⟩ := map_eq_some_iff.1 h
    exact ⟨.closed (hparts es hes), fun _ => trivial⟩
  · intro u e h
    cases h
  · intro b e h
    cases h
  · intro es h
    rw [← Option.some.inj h]
    exact forall_mem_nil _
  · intro ts tss hts htss es h
    obtain ⟨e, he, h⟩ := bind_eq_some_iff.1 h
    obtain ⟨es', hes', rfl⟩ := map_eq_some_iff.1 h
    exact forall_mem_cons.2 ⟨hts.1 none [] e (fun l hl => nomatch hl) he, htss es' hes'⟩

theorem grouped_of_read {ts : List (Token X L U B)} (h : read ts = some t) : Grouped t :=
  (readsGrouped ts).1 none [] t (fun _ hl => nomatch hl) h

theorem read_print (h : Grouped t) : read (print t) = some t := by
  have hgroup := group_print h none [] (fun l hl => nomatch hl) []
  rwa [append_nil] at hgroup

end Reading

/-! ## Substitution -/

mutual

def bindLeaves (g : X → Option (Phrase X L U B)) : Phrase X L U B → Option (Phrase X L U B)
  | .leaf x => g x
  | .closed label parts => (bindParts g parts).map (.closed label)
  | .pre u e => (bindLeaves g e).map (.pre u)
  | .bin b l r => (bindLeaves g l).bind fun l' => (bindLeaves g r).map (.bin b l')

def bindParts (g : X → Option (Phrase X L U B)) : List (Phrase X L U B) → Option (List (Phrase X L U B))
  | [] => some []
  | p :: ps => (bindLeaves g p).bind fun p' => (bindParts g ps).map (p' :: ·)

end

mutual

def rename (g : X → X) : Phrase X L U B → Phrase X L U B
  | .leaf x => .leaf (g x)
  | .closed label parts => .closed label (renameParts g parts)
  | .pre u e => .pre u (rename g e)
  | .bin b l r => .bin b (rename g l) (rename g r)

def renameParts (g : X → X) : List (Phrase X L U B) → List (Phrase X L U B)
  | [] => []
  | p :: ps => rename g p :: renameParts g ps

end

/-- how what is known at a phrase passes to its parts and operands -/
structure Inherit (A X L U B : Type) where
  part : A → L → List (Phrase X L U B) → ℕ → A
  operand : A → U → A
  inside : A → B → A

/-- a leaf of a phrase: what is known there, the least level of an operator that the operator or prefix before it takes,
and the operator after it -/
structure Place (A X B : Type) where
  attr : A
  least : ℕ
  next : Option B
  leaf : X

section Leaves

variable {A : Type} [Binding B] [Taking U] (I : Inherit A X L U B)

open Binding Taking

mutual

def mapLeaves (f : Place A X B → Phrase X L U B) : A → ℕ → Option B → Phrase X L U B → Phrase X L U B
  | a, least, next, .leaf x => f ⟨a, least, next, x⟩
  | a, _, _, .closed label parts => .closed label (mapParts f a label parts 0 parts)
  | a, _, next, .pre u e => .pre u (mapLeaves f (I.operand a u) (Taking.least u) next e)
  | a, _, next, .bin b l r =>
    .bin b (mapLeaves f (I.inside a b) 0 (some b) l) (mapLeaves f (I.inside a b) (level b + 1) next r)

def mapParts (f : Place A X B → Phrase X L U B) (a : A) (label : L) (all : List (Phrase X L U B)) :
    ℕ → List (Phrase X L U B) → List (Phrase X L U B)
  | _, [] => []
  | i, p :: ps => mapLeaves f (I.part a label all i) 0 none p :: mapParts f a label all (i + 1) ps

end

mutual

/-- the leaves of a phrase -/
def places : A → ℕ → Option B → Phrase X L U B → List (Place A X B)
  | a, least, next, .leaf x => [⟨a, least, next, x⟩]
  | a, _, _, .closed label parts => partPlaces a label parts 0 parts
  | a, _, next, .pre u e => places (I.operand a u) (Taking.least u) next e
  | a, _, next, .bin b l r =>
    places (I.inside a b) 0 (some b) l ++ places (I.inside a b) (level b + 1) next r

def partPlaces (a : A) (label : L) (all : List (Phrase X L U B)) : ℕ → List (Phrase X L U B) → List (Place A X B)
  | _, [] => []
  | i, p :: ps => places (I.part a label all i) 0 none p ++ partPlaces a label all (i + 1) ps

end

/-- **Substitutions** that agree at every place agree, and only those. -/
theorem mapLeaves_eq_iff (f g : Place A X B → Phrase X L U B) (a : A) (least : ℕ) (next : Option B)
    (t : Phrase X L U B) :
    mapLeaves I f a least next t = mapLeaves I g a least next t ↔
      ∀ p ∈ places I a least next t, f p = g p := by
  induction t using Phrase.induction generalizing a least next with
  | leaf x => rw [mapLeaves, mapLeaves, places, List.forall_mem_singleton]
  | closed label parts ih =>
    have hparts : ∀ (all ps : List (Phrase X L U B)) (i : ℕ), (∀ p ∈ ps, p ∈ parts) →
        (mapParts I f a label all i ps = mapParts I g a label all i ps ↔
          ∀ p ∈ partPlaces I a label all i ps, f p = g p) := by
      intro all ps i hps
      induction ps generalizing i with
      | nil => simp [mapParts, partPlaces]
      | cons p ps ihps =>
        rcases List.forall_mem_cons.1 hps with ⟨hp, hps⟩
        rw [mapParts, mapParts, partPlaces, List.cons.injEq, List.forall_mem_append, ih p hp, ihps (i + 1) hps]
    rw [mapLeaves, mapLeaves, places, ← hparts parts parts 0 fun p hp => hp]
    simp
  | pre u e ih =>
    rw [mapLeaves, mapLeaves, places, ← ih]
    simp
  | bin b l r ihl ihr =>
    rw [mapLeaves, mapLeaves, places, List.forall_mem_append, ← ihl, ← ihr]
    simp

structure Settled (least : ℕ) (next : Option B) (t : Phrase X L U B) : Prop where
  grouped : Grouped t
  before : AtLeast least t
  behind : ∀ b ∈ next, accepts t b = false

omit [Taking U] in
theorem atLeast_zero (t : Phrase X L U B) : AtLeast 0 t := by
  cases t with
  | bin b l r => exact Nat.zero_le _
  | _ => trivial

variable {least : ℕ} {next : Option B}

theorem settled_pre_iff {u : U} {e : Phrase X L U B} : Settled least next (.pre u e) ↔
    Settled (Taking.least u) next e ∧ ∀ b ∈ next, ¬ Taking.least u ≤ level b := by
  constructor
  · rintro ⟨hgrouped, -, hbehind⟩
    rcases grouped_pre_iff.1 hgrouped with ⟨he, hleast⟩
    refine ⟨⟨he, hleast, fun b hb => ?_⟩, fun b hb => ?_⟩
    · exact (Bool.or_eq_false_iff.1 (hbehind b hb)).1
    · exact of_decide_eq_false (Bool.or_eq_false_iff.1 (hbehind b hb)).2
  · rintro ⟨⟨he, hleast, hbehind⟩, hnext⟩
    refine ⟨.pre he hleast, trivial, fun b hb => ?_⟩
    exact Bool.or_eq_false_iff.2 ⟨hbehind b hb, decide_eq_false (hnext b hb)⟩

theorem settled_bin_iff {b : B} {l r : Phrase X L U B} :
    Settled least next (.bin b l r) ↔ Settled 0 (some b) l ∧ Settled (level b + 1) next r ∧ least ≤ level b ∧
      ∀ o ∈ next, ¬ level b < level o := by
  constructor
  · rintro ⟨hgrouped, hbefore, hbehind⟩
    obtain ⟨hl, hr, hleft, hright⟩ := grouped_bin_iff.1 hgrouped
    refine ⟨⟨hl, atLeast_zero l, fun o ho => ?_⟩, ⟨hr, hright, fun o ho => ?_⟩, hbefore, fun o ho => ?_⟩
    · rwa [← Option.some.inj ho]
    · exact (Bool.or_eq_false_iff.1 (hbehind o ho)).1
    · exact of_decide_eq_false (Bool.or_eq_false_iff.1 (hbehind o ho)).2
  · rintro ⟨⟨hl, -, hleft⟩, ⟨hr, hright, hbehind⟩, hbefore, hnext⟩
    refine ⟨.bin hl hr (hleft b rfl) hright, hbefore, fun o ho => ?_⟩
    exact Bool.or_eq_false_iff.2 ⟨hbehind o ho, decide_eq_false (hnext o ho)⟩

theorem settled_closed_iff {label : L} {parts : List (Phrase X L U B)} :
    Settled least next (.closed label parts) ↔ ∀ p ∈ parts, Settled 0 none p := by
  constructor
  · rintro ⟨hgrouped, -, -⟩ p hp
    exact ⟨grouped_closed_iff.1 hgrouped p hp, atLeast_zero p, fun b hb => nomatch hb⟩
  · intro h
    exact ⟨.closed fun p hp => (h p hp).grouped, trivial, fun b _ => rfl⟩

/-- **A substitution keeps a phrase grouped** exactly if what it puts in is grouped at its place. -/
theorem settled_mapLeaves (f : Place A X B → Phrase X L U B) {t : Phrase X L U B} (a : A)
    (ht : Settled least next t) : Settled least next (mapLeaves I f a least next t) ↔
      ∀ p ∈ places I a least next t, Settled p.least p.next (f p) := by
  induction t using Phrase.induction generalizing a least next with
  | leaf x => rw [mapLeaves, places, List.forall_mem_singleton]
  | closed label parts ih =>
    have hall := settled_closed_iff.1 ht
    have hparts : ∀ (all ps : List (Phrase X L U B)) (i : ℕ), (∀ p ∈ ps, p ∈ parts) →
        ((∀ p ∈ mapParts I f a label all i ps, Settled 0 none p) ↔
          ∀ p ∈ partPlaces I a label all i ps, Settled p.least p.next (f p)) := by
      intro all ps i hps
      induction ps generalizing i with
      | nil => simp [mapParts, partPlaces]
      | cons p ps ihps =>
        rcases List.forall_mem_cons.1 hps with ⟨hp, hps⟩
        rw [mapParts, partPlaces, List.forall_mem_cons, List.forall_mem_append, ih p hp _ (hall p hp),
          ihps (i + 1) hps]
    rw [mapLeaves, places, settled_closed_iff, hparts parts parts 0 fun p hp => hp]
  | pre u e ih =>
    rcases settled_pre_iff.1 ht with ⟨he, hnext⟩
    rw [mapLeaves, places, settled_pre_iff, ih _ he]
    exact and_iff_left hnext
  | bin b l r ihl ihr =>
    obtain ⟨hl, hr, hleast, hnext⟩ := settled_bin_iff.1 ht
    rw [mapLeaves, places, settled_bin_iff, ihl _ hl, ihr _ hr, List.forall_mem_append, ← and_assoc]
    exact and_iff_left ⟨hleast, hnext⟩

/-! ## Substitutions that may fail -/

/-- what a substitution puts at a place -/
def found (g : X → Option (Phrase X L U B)) (p : Place A X B) : Phrase X L U B := (g p.leaf).getD (.leaf p.leaf)

/-- **A substitution that may fail** succeeds exactly if it does at every place. -/
theorem bindLeaves_eq_some_iff (g : X → Option (Phrase X L U B)) (a : A) (least : ℕ) (next : Option B)
    (t t' : Phrase X L U B) : bindLeaves g t = some t' ↔
      (∀ p ∈ places I a least next t, (g p.leaf).isSome) ∧ t' = mapLeaves I (found g) a least next t := by
  induction t using Phrase.induction generalizing a least next t' with
  | leaf x =>
    rw [bindLeaves, places, mapLeaves, List.forall_mem_singleton, found]
    cases g x with
    | none => exact iff_of_false (fun h => nomatch h) fun h => Bool.false_ne_true h.1
    | some e => exact ⟨fun h => ⟨rfl, (Option.some.inj h).symm⟩, fun h => congrArg some h.2.symm⟩
  | closed label parts ih =>
    have hparts : ∀ (all ps : List (Phrase X L U B)) (i : ℕ) (ps' : List (Phrase X L U B)), (∀ p ∈ ps, p ∈ parts) →
        (bindParts g ps = some ps' ↔ (∀ p ∈ partPlaces I a label all i ps, (g p.leaf).isSome) ∧
          ps' = mapParts I (found g) a label all i ps) := by
      intro all ps i ps' hps
      induction ps generalizing i ps' with
      | nil => exact ⟨fun h => ⟨List.forall_mem_nil _, (Option.some.inj h).symm⟩, fun h => congrArg some h.2.symm⟩
      | cons p ps ihps =>
        rcases List.forall_mem_cons.1 hps with ⟨hp, hps⟩
        rw [bindParts, partPlaces, mapParts, List.forall_mem_append, Option.bind_eq_some_iff]
        simp only [ih p hp (I.part a label all i) 0 none, Option.map_eq_some_iff, ihps (i + 1) _ hps]
        constructor
        · rintro ⟨p', ⟨h₁, rfl⟩, ps'', ⟨h₂, rfl⟩, rfl⟩
          exact ⟨⟨h₁, h₂⟩, rfl⟩
        · rintro ⟨⟨h₁, h₂⟩, rfl⟩
          exact ⟨_, ⟨h₁, rfl⟩, _, ⟨h₂, rfl⟩, rfl⟩
    rw [bindLeaves, places, mapLeaves, Option.map_eq_some_iff]
    constructor
    · rintro ⟨ps', hps', rfl⟩
      rcases (hparts parts parts 0 ps' fun p hp => hp).1 hps' with ⟨h, rfl⟩
      exact ⟨h, rfl⟩
    · rintro ⟨h, rfl⟩
      exact ⟨_, (hparts parts parts 0 _ fun p hp => hp).2 ⟨h, rfl⟩, rfl⟩
  | pre u e ih =>
    rw [bindLeaves, places, mapLeaves, Option.map_eq_some_iff]
    simp only [ih (I.operand a u) (Taking.least u) next]
    constructor
    · rintro ⟨e', ⟨h, rfl⟩, rfl⟩
      exact ⟨h, rfl⟩
    · rintro ⟨h, rfl⟩
      exact ⟨_, ⟨h, rfl⟩, rfl⟩
  | bin b l r ihl ihr =>
    rw [bindLeaves, places, mapLeaves, List.forall_mem_append, Option.bind_eq_some_iff]
    simp only [ihl (I.inside a b) 0 (some b), Option.map_eq_some_iff, ihr (I.inside a b) (level b + 1) next]
    constructor
    · rintro ⟨l', ⟨hl, rfl⟩, r', ⟨hr, rfl⟩, rfl⟩
      exact ⟨⟨hl, hr⟩, rfl⟩
    · rintro ⟨⟨hl, hr⟩, rfl⟩
      exact ⟨_, ⟨hl, rfl⟩, _, ⟨hr, rfl⟩, rfl⟩

end Leaves

end Langbridge.Core.Phrases
