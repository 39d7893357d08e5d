/-
Programs of file operations that may be cut off between any two of them. A program runs with the number of operations
left before the cut; `Triple` is a Hoare triple with a second postcondition, for the files that a run leaves that was
cut off or raised.

Main results: `Triple.bind`, `Triple.op` and `Triple.look`, the rules by which a program is taken apart.
-/
import Langbridge.Core.PosixPath

namespace Langbridge.Core

variable {C α β : Type}

inductive Node (C : Type) where
  | dir
  | file (c : C)
deriving DecidableEq

abbrev Files (C : Type) := PosixPath → Option (Node C)

def PosixPath.parent (p : PosixPath) : PosixPath := ⟨p.absolute, p.parts.dropLast⟩

/-- `q` is `p` or a directory above it -/
def PosixPath.isAbove (q p : PosixPath) : Bool := q.absolute = p.absolute && q.parts.isPrefixOf p.parts

/-- `path.mkdir(parents=True, exist_ok=True)`, and one step of writing a file -/
inductive FileOp (C : Type) where
  | mkdir (p : PosixPath)
  | put (p : PosixPath) (c : C)

/-- a file in the place of a directory -/
def Files.blocked (files : Files C) (p : PosixPath) : Bool :=
  p.parts.inits.any fun parts =>
    match files ⟨p.absolute, parts⟩ with
    | some (.file _) => true
    | _ => false

/-- the files after an operation, `none` when it raises -/
def FileOp.apply (files : Files C) : FileOp C → Option (Files C)
  | .mkdir p => if files.blocked p then none else some fun q => if q.isAbove p then some .dir else files q
  | .put p c =>
    match files p with
    | some .dir => none
    | _ => some (Function.update files p (some (.file c)))

/-- how a run ends before its program does -/
inductive Stop where
  | cut
  | raised
deriving DecidableEq

/-- a program, from the number of operations left and the files -/
def Disk (C α : Type) := ℕ → Files C → Except Stop α × ℕ × Files C

namespace Disk

def bind (m : Disk C α) (k : α → Disk C β) : Disk C β := fun n files =>
  match m n files with
  | (.ok a, n', files') => k a n' files'
  | (.error e, n', files') => (.error e, n', files')

instance : Monad (Disk C) where
  pure a := fun n files => (.ok a, n, files)
  bind := bind

def op (o : FileOp C) : Disk C Unit := fun n files =>
  match n with
  | 0 => (.error .cut, 0, files)
  | n + 1 =>
    match o.apply files with
    | none => (.error .raised, n, files)
    | some files' => (.ok (), n, files')

def look (p : PosixPath) : Disk C (Option (Node C)) := fun n files => (.ok (files p), n, files)

/-- from `P`, a run that ends normally ends in `Q`, and one that does not leaves files of which `crash` holds -/
def Triple (P : ℕ → Files C → Prop) (m : Disk C α) (crash : Files C → Prop) (Q : α → ℕ → Files C → Prop) : Prop :=
  ∀ n files, P n files →
    match m n files with
    | (.ok a, n', files') => Q a n' files'
    | (.error _, _, files') => crash files'

variable {P P' : ℕ → Files C → Prop} {crash : Files C → Prop}

theorem Triple.pure {Q : α → ℕ → Files C → Prop} {a : α} (h : ∀ n files, P n files → Q a n files) :
    Triple P (Pure.pure a) crash Q := h

theorem Triple.bind {R : α → ℕ → Files C → Prop} {Q : β → ℕ → Files C → Prop} {m : Disk C α} {k : α → Disk C β}
    (hm : Triple P m crash R) (hk : ∀ a, Triple (R a) (k a) crash Q) : Triple P (m >>= k) crash Q := by
  intro n files hP
  have hfirst := hm n files hP
  change match Disk.bind m k n files with
    | (.ok a, n', files') => Q a n' files'
    | (.error _, _, files') => crash files'
  unfold Disk.bind
  revert hfirst
  match m n files with
  | (.ok a, n', files') => exact fun hR => hk a n' files' hR
  | (.error e, n', files') => exact fun hcrash => hcrash

theorem Triple.op {Q : Unit → ℕ → Files C → Prop} {o : FileOp C} (hcut : ∀ files, P 0 files → crash files)
    (hraised : ∀ n files, P (n + 1) files → o.apply files = none → crash files)
    (hdone : ∀ n files files', P (n + 1) files → o.apply files = some files' → Q () n files') :
    Triple P (op o) crash Q := by
  intro n files hP
  cases n with
  | zero => exact hcut files hP
  | succ n =>
    unfold Disk.op
    cases happly : o.apply files with
    | none => exact hraised n files hP happly
    | some files' => exact hdone n files files' hP happly

theorem Triple.look {p : PosixPath} {Q : Option (Node C) → ℕ → Files C → Prop}
    (h : ∀ n files, P n files → Q (files p) n files) : Triple P (look p) crash Q := h

end Disk

/-! ## What the operations leave alone -/

variable {files files' : Files C}

theorem isAbove_iff {q p : PosixPath} : q.isAbove p = true ↔ q.absolute = p.absolute ∧ q.parts <+: p.parts := by
  rw [PosixPath.isAbove, Bool.and_eq_true, decide_eq_true_eq, List.isPrefixOf_iff_prefix]

/-- a directory takes no file's place -/
theorem mkdir_file {p q : PosixPath} {c : C} (h : (FileOp.mkdir p).apply files = some files') :
    files' q = some (.file c) ↔ files q = some (.file c) := by
  rw [FileOp.apply] at h
  split_ifs at h with hblocked
  cases h
  beta_reduce
  by_cases habove : q.isAbove p = true
  · rw [if_pos habove]
    constructor
    · intro hdir
      cases hdir
    · intro hfile
      obtain ⟨habsolute, hparts⟩ := isAbove_iff.1 habove
      refine absurd (List.any_eq_true.2 ⟨q.parts, (List.mem_inits _ _).2 hparts, ?_⟩) hblocked
      rw [← habsolute, hfile]
  · rw [if_neg habove]

theorem mkdir_other {p q : PosixPath} (h : (FileOp.mkdir p).apply files = some files') (hq : q.isAbove p = false) :
    files' q = files q := by
  rw [FileOp.apply] at h
  split_ifs at h
  cases h
  beta_reduce
  rw [hq]
  rfl

theorem put_eq {p : PosixPath} {c : C} (h : (FileOp.put p c).apply files = some files') :
    files' = Function.update files p (some (.file c)) := by
  rw [FileOp.apply] at h
  split at h
  · cases h
  · exact (Option.some.inj h).symm

end Langbridge.Core
