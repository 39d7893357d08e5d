/-
Breadth-first search for one target in a graph given by the labelled edges that leave each node. The queue holds each
node with the labels of the way to it; the search ends at once when the target is seen.

Main results: `search_trail`, `search_eq_none_iff`.
-/
import Mathlib.Data.Finset.Card
import Mathlib.Logic.Relation
import Mathlib.Tactic

namespace Langbridge.Core.BreadthFirst

open List

variable {α ε : Type} [DecidableEq α] (next : α → List (α × ε))

/-! ## Ways through the graph -/

/-- the labels lead from one node to the other -/
def Trail : α → List ε → α → Prop
  | a, [], b => a = b
  | a, e :: es, b => ∃ c, (c, e) ∈ next a ∧ Trail c es b

/-- an edge leads from one node to the other -/
def Edge (a b : α) : Prop := ∃ e, (b, e) ∈ next a

def Reachable (a b : α) : Prop := Relation.ReflTransGen (Edge next) a b

omit [DecidableEq α] in
theorem Trail.snoc {a b c : α} {es : List ε} {e : ε} (h : Trail next a es b) (he : (c, e) ∈ next b) :
    Trail next a (es ++ [e]) c := by
  induction es generalizing a with
  | nil => exact ⟨c, (show a = b from h) ▸ he, rfl⟩
  | cons e' es ih =>
    obtain ⟨d, hd, h⟩ := h
    exact ⟨d, hd, ih h⟩

omit [DecidableEq α] in
theorem Trail.reachable {a b : α} {es : List ε} (h : Trail next a es b) : Reachable next a b := by
  induction es generalizing a with
  | nil => exact (show a = b from h) ▸ Relation.ReflTransGen.refl
  | cons e es ih =>
    obtain ⟨c, hc, h⟩ := h
    exact Relation.ReflTransGen.head ⟨e, hc⟩ (ih h)

omit [DecidableEq α] in
/-- what contains the start and is closed under edges contains all that can be reached -/
theorem Reachable.mem {a b : α} (h : Reachable next a b) {s : Finset α} (ha : a ∈ s)
    (hclosed : ∀ x ∈ s, ∀ y, Edge next x y → y ∈ s) : b ∈ s := by
  induction h with
  | refl => exact ha
  | tail _ hbc ih => exact hclosed _ ih _ hbc

/-! ## The search -/

/-- the nodes seen so far, and those still to be expanded with the way to each -/
structure Frontier (α ε : Type) where
  visited : Finset α
  queue : List (α × List ε)

/-- a neighbour is enqueued -/
def Frontier.visit (f : Frontier α ε) (n : α) (path : List ε) : Frontier α ε :=
  ⟨insert n f.visited, f.queue ++ [(n, path)]⟩

variable (target : α)

/-- the neighbours of a node, in their order: one that is the target ends the search -/
def expand (path : List ε) : List (α × ε) → Frontier α ε → List ε ⊕ Frontier α ε
  | [], f => .inr f
  | (n, e) :: rest, f =>
    if n ∈ f.visited then expand path rest f
    else if n = target then .inl (path ++ [e])
    else expand path rest (f.visit n (path ++ [e]))

/-- so many rounds, each of which expands the head of the queue -/
def rounds : ℕ → Frontier α ε → Option (List ε)
  | 0, _ => none
  | _ + 1, ⟨_, []⟩ => none
  | k + 1, ⟨visited, (current, path) :: queue⟩ =>
    match expand target path (next current) ⟨visited, queue⟩ with
    | .inl found => some found
    | .inr f => rounds k f

def search (fuel : ℕ) (start : α) : Option (List ε) :=
  if start = target then some [] else rounds next target fuel ⟨{start}, [(start, [])]⟩

/-! ## One node's neighbours -/

theorem expand_found {path : List ε} {ns : List (α × ε)} {f : Frontier α ε} {found : List ε}
    (h : expand target path ns f = .inl found) : ∃ e, (target, e) ∈ ns ∧ found = path ++ [e] := by
  induction ns generalizing f with
  | nil => simp [expand] at h
  | cons x ns ih =>
    obtain ⟨n, e⟩ := x
    rw [expand] at h
    split_ifs at h with hvisited htarget
    · obtain ⟨e', he', hfound⟩ := ih h
      exact ⟨e', mem_cons_of_mem _ he', hfound⟩
    · exact ⟨e, htarget ▸ mem_cons_self, (Sum.inl.inj h).symm⟩
    · obtain ⟨e', he', hfound⟩ := ih h
      exact ⟨e', mem_cons_of_mem _ he', hfound⟩

/-- what has changed when a node's neighbours have been looked at and the target was not among the new ones -/
structure Expanded (path : List ε) (ns : List (α × ε)) (f f' : Frontier α ε) : Prop where
  grows : f.visited ⊆ f'.visited
  seen : ∀ x ∈ ns, x.1 ∈ f'.visited
  queued : ∀ x ∈ f'.queue, x ∈ f.queue ∨ ∃ e, (x.1, e) ∈ ns ∧ x.2 = path ++ [e]
  kept : ∀ x ∈ f.queue, x ∈ f'.queue
  fresh : ∀ x ∈ f'.visited, x ∈ f.visited ∨ x ∈ f'.queue.map Prod.fst
  origin : ∀ x ∈ f'.visited, x ∈ f.visited ∨ x ∈ ns.map Prod.fst
  balance : f'.queue.length + f.visited.card = f.queue.length + f'.visited.card
  missed : target ∉ f.visited → target ∉ f'.visited

theorem expand_more {path : List ε} {ns : List (α × ε)} {f f' : Frontier α ε}
    (h : expand target path ns f = .inr f') : Expanded target path ns f f' := by
  induction ns generalizing f with
  | nil =>
    simp only [expand, Sum.inr.injEq] at h
    subst h
    exact ⟨fun _ hx => hx, by simp, fun x hx => .inl hx, fun x hx => hx, fun x hx => .inl hx,
      fun x hx => .inl hx, rfl, id⟩
  | cons x ns ih =>
    obtain ⟨n, e⟩ := x
    rw [expand] at h
    split_ifs at h with hvisited htarget
    · have hrest := ih h
      refine ⟨hrest.grows, ?_, ?_, hrest.kept, hrest.fresh, ?_, hrest.balance, hrest.missed⟩
      · intro y hy
        rcases mem_cons.1 hy with rfl | hy
        · exact hrest.grows hvisited
        · exact hrest.seen y hy
      · intro y hy
        rcases hrest.queued y hy with hy | ⟨e', he', hpath⟩
        · exact .inl hy
        · exact .inr ⟨e', mem_cons_of_mem _ he', hpath⟩
      · intro y hy
        rcases hrest.origin y hy with hy | hy
        · exact .inl hy
        · exact .inr (mem_cons_of_mem _ hy)
    · have hrest := ih h
      have hn : n ∈ f'.visited := hrest.grows (Finset.mem_insert_self n f.visited)
      refine ⟨fun y hy => hrest.grows (Finset.mem_insert_of_mem hy), ?_, ?_, ?_, ?_, ?_, ?_, ?_⟩
      · intro y hy
        rcases mem_cons.1 hy with rfl | hy
        · exact hn
        · exact hrest.seen y hy
      · intro y hy
        rcases hrest.queued y hy with hy | ⟨e', he', hpath⟩
        · rcases mem_append.1 hy with hy | hy
          · exact .inl hy
          · rw [mem_singleton] at hy
            subst hy
            exact .inr ⟨e, mem_cons_self, rfl⟩
        · exact .inr ⟨e', mem_cons_of_mem _ he', hpath⟩
      · exact fun y hy => hrest.kept y (mem_append_left _ hy)
      · intro y hy
        rcases hrest.fresh y hy with hy | hy
        · rcases Finset.mem_insert.1 hy with rfl | hy
          · exact .inr (mem_map_of_mem (hrest.kept (_, path ++ [e])
              (mem_append_right _ mem_cons_self)))
          · exact .inl hy
        · exact .inr hy
      · intro y hy
        rcases hrest.origin y hy with hy | hy
        · rcases Finset.mem_insert.1 hy with rfl | hy
          · exact .inr mem_cons_self
          · exact .inl hy
        · exact .inr (mem_cons_of_mem _ hy)
      · have hbalance := hrest.balance
        simp only [Frontier.visit, length_append, length_singleton,
          Finset.card_insert_of_notMem hvisited] at hbalance
        omega
      · intro hmiss
        apply hrest.missed
        intro hmem
        rcases Finset.mem_insert.1 hmem with heq | hmem
        · exact htarget heq.symm
        · exact hmiss hmem

/-! ## The whole search -/

/-- what is queued is reached by the way queued with it -/
def Queued (start : α) (f : Frontier α ε) : Prop := ∀ x ∈ f.queue, Trail next start x.2 x.1

omit [DecidableEq α] in
theorem Queued.expand {start current : α} {path : List ε} {visited : Finset α} {queue : List (α × List ε)}
    {f' : Frontier α ε} (h : Queued next start ⟨visited, (current, path) :: queue⟩)
    (hstep : Expanded target path (next current) ⟨visited, queue⟩ f') : Queued next start f' := by
  intro x hx
  rcases hstep.queued x hx with hx | ⟨e, he, hpath⟩
  · exact h x (mem_cons_of_mem _ hx)
  · rw [hpath]
    exact (h _ mem_cons_self).snoc next he

theorem rounds_trail (start : α) (k : ℕ) (f : Frontier α ε) (hqueue : Queued next start f) (found : List ε)
    (h : rounds next target k f = some found) : Trail next start found target := by
  induction k generalizing f with
  | zero => simp [rounds] at h
  | succ k ih =>
    obtain ⟨visited, queue⟩ := f
    cases queue with
    | nil => simp [rounds] at h
    | cons x queue =>
      obtain ⟨current, path⟩ := x
      rw [rounds] at h
      cases hexp : expand target path (next current) ⟨visited, queue⟩ with
      | inl path' =>
        rw [hexp] at h
        obtain ⟨e, he, rfl⟩ := expand_found target hexp
        rw [← Option.some.inj h]
        exact (hqueue _ mem_cons_self).snoc next he
      | inr f' =>
        rw [hexp] at h
        exact ih f' (hqueue.expand next target (expand_more target hexp)) h

/-- **What is found leads to the target.** -/
theorem search_trail (fuel : ℕ) (start : α) (found : List ε) (h : search next target fuel start = some found) :
    Trail next start found target := by
  rw [search] at h
  split_ifs at h with hstart
  · rw [← Option.some.inj h]
    exact hstart
  · apply rounds_trail next target start fuel _ _ found h
    intro x hx
    rw [mem_singleton] at hx
    subst hx
    exact rfl

/-- the start is seen and the target is not, each seen node is queued or has only seen neighbours, and what is seen
lies among the nodes of the graph -/
structure Searching (nodes : Finset α) (start : α) (f : Frontier α ε) : Prop where
  start : start ∈ f.visited
  missed : target ∉ f.visited
  expanded : ∀ x ∈ f.visited, x ∈ f.queue.map Prod.fst ∨ ∀ y ∈ next x, y.1 ∈ f.visited
  inside : f.visited ⊆ nodes

omit [DecidableEq α] in
theorem Searching.expand {nodes : Finset α} {start current : α} {path : List ε} {visited : Finset α}
    {queue : List (α × List ε)} {f' : Frontier α ε} (hnodes : ∀ a, ∀ x ∈ next a, x.1 ∈ nodes)
    (h : Searching next target nodes start ⟨visited, (current, path) :: queue⟩)
    (hstep : Expanded target path (next current) ⟨visited, queue⟩ f') : Searching next target nodes start f' := by
  refine ⟨hstep.grows h.start, hstep.missed h.missed, ?_, ?_⟩
  · intro x hx
    rcases hstep.fresh x hx with hold | hnew
    · rcases h.expanded x hold with hqueued | hdone
      · rcases mem_cons.1 hqueued with rfl | hqueued
        · exact .inr hstep.seen
        · obtain ⟨y, hy, rfl⟩ := mem_map.1 hqueued
          exact .inl (mem_map_of_mem (hstep.kept y hy))
      · exact .inr fun y hy => hstep.grows (hdone y hy)
    · exact .inl hnew
  · intro x hx
    rcases hstep.origin x hx with hold | hnew
    · exact h.inside hold
    · obtain ⟨y, hy, rfl⟩ := mem_map.1 hnew
      exact hnodes current y hy

/-- with a round left for every queued and every unseen node, a search that finds nothing has seen all that can be
reached -/
theorem rounds_none {nodes : Finset α} {start : α} (hnodes : ∀ a, ∀ x ∈ next a, x.1 ∈ nodes) (k : ℕ)
    (f : Frontier α ε) (hsearch : Searching next target nodes start f)
    (hfuel : f.queue.length + nodes.card < k + f.visited.card)
    (h : rounds next target k f = none) : ¬Reachable next start target := by
  induction k generalizing f with
  | zero =>
    have := Finset.card_le_card hsearch.inside
    omega
  | succ k ih =>
    obtain ⟨visited, queue⟩ := f
    cases queue with
    | nil =>
      intro hreach
      apply hsearch.missed
      apply hreach.mem next hsearch.start
      intro x hx y hy
      obtain ⟨e, he⟩ := hy
      rcases hsearch.expanded x hx with hqueued | hdone
      · simp at hqueued
      · exact hdone (y, e) he
    | cons x queue =>
      obtain ⟨current, path⟩ := x
      rw [rounds] at h
      cases hexp : BreadthFirst.expand target path (next current) ⟨visited, queue⟩ with
      | inl path' => simp [hexp] at h
      | inr f' =>
        rw [hexp] at h
        have hstep := expand_more target hexp
        have hbalance := hstep.balance
        simp only [length_cons] at hfuel hbalance
        exact ih f' (hsearch.expand next target hnodes hstep) (by omega) h

/-- **Nothing is found exactly when no way leads to the target**, where there is a round for each node. -/
theorem search_eq_none_iff (nodes : Finset α) (hnodes : ∀ a, ∀ x ∈ next a, x.1 ∈ nodes) (fuel : ℕ) (start : α)
    (hfuel : nodes.card + 1 < fuel) : search next target fuel start = none ↔ ¬Reachable next start target := by
  apply Iff.intro
  · intro h
    rw [search] at h
    split_ifs at h with hstart
    apply @rounds_none α ε _ next target (insert start nodes) start ?_ fuel _ ?_ ?_ h
    · exact fun a x hx => Finset.mem_insert_of_mem (hnodes a x hx)
    · refine ⟨Finset.mem_singleton_self start, ?_, ?_, ?_⟩
      · rw [Finset.mem_singleton]
        exact fun h => hstart h.symm
      · intro x hx
        rw [Finset.mem_singleton] at hx
        exact .inl (by simp [hx])
      · exact Finset.singleton_subset_iff.2 (Finset.mem_insert_self start nodes)
    · have hcard := Finset.card_insert_le start nodes
      simp only [length_singleton, Finset.card_singleton]
      omega
  · intro hreach
    by_contra hsome
    obtain ⟨found, hfound⟩ := Option.ne_none_iff_exists'.1 hsome
    exact hreach (search_trail next target fuel start found hfound).reachable

end Langbridge.Core.BreadthFirst
