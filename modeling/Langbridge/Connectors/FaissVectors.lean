/-
Vectors in a FAISS collection (`connectors/vector/faiss/connector.py`) over exact real numbers. A batch is divided by
the norm of the whole matrix, a query by its own, and the index ranks by inner products: a stored vector counts with its
share of the length of its batch.
-/
import Mathlib.Analysis.InnerProductSpace.PiL2
import Langbridge.Core.Cosine
import Langbridge.Core.Dict

namespace Langbridge.Connectors.FaissVectors

open Core List

/-! ## The connector -/

/-- the errors of the connector; what NumPy and FAISS say is left out -/
inductive ConnectorError where
  | invalidPayload
  | metadataLength
  | dimensionMismatch (existing provided : ℕ)
  | queryDimension (query index : ℕ)
  | unavailable
  | addFailed
  | indexExists
  | unsupportedMetric

/-- what is stored beside a vector: a dictionary, or nothing -/
abbrev Payload := Option (List (String × String))

structure FaissConnector where
  /-- the dimension of the index and its rows -/
  index : Option (ℕ × List (ℕ × List ℝ)) := none
  dimension : Option ℕ := none
  metadata : List (ℕ × Payload) := []
  nextId : ℕ := 1

noncomputable def dot (u v : List ℝ) : ℝ := (List.zipWith (· * ·) u v).sum

/-- `np.linalg.norm` of a matrix -/
noncomputable def matrixNorm (matrix : List (List ℝ)) : ℝ := Real.sqrt (matrix.map fun row => dot row row).sum

noncomputable def normalizeMatrix (matrix : List (List ℝ)) : List (List ℝ) :=
  if matrixNorm matrix = 0 then matrix else matrix.map fun row => row.map (· / matrixNorm matrix)

/-- `_to_matrix`: rows of one length -/
def toMatrix (vectors : List (List ℝ)) : Option (List (List ℝ)) :=
  if vectors.all fun row => row.length = (vectors.headD []).length then some vectors else none

namespace FaissConnector

def createIndex (st : FaissConnector) (dimension : ℕ) (metric : String) : Except ConnectorError FaissConnector :=
  if st.index.isSome then .error .indexExists
  else if metric ≠ "cosine" then .error .unsupportedMetric
  else .ok { st with index := some (dimension, []), dimension := some dimension }

def deleteIndex (_ : FaissConnector) : FaissConnector := {}

def ensureIndexReady (st : FaissConnector) (dimension : ℕ) : Except ConnectorError FaissConnector :=
  let existing := st.dimension.getD 0
  if existing ≠ 0 ∧ existing ≠ dimension then .error (.dimensionMismatch existing dimension)
  else
    let known := st.dimension.getD dimension
    .ok { st with index := some (st.index.getD (known, [])), dimension := some known }

def addWithIds (st : FaissConnector) (matrix : List (List ℝ)) (payloads : List Payload) :
    Except ConnectorError (List ℕ) × FaissConnector :=
  let ids := List.range' st.nextId matrix.length
  let counted := { st with nextId := st.nextId + matrix.length }
  match st.index with
  | none => (.error .unavailable, st)
  | some (dimension, rows) =>
    if matrix.all fun row => row.length = dimension then
      (.ok ids, { counted with
        index := some (dimension, rows ++ ids.zip matrix)
        metadata := (ids.zip payloads).foldl (fun m e => Dict.setEntry e.1 e.2 m) st.metadata })
    else (.error .addFailed, counted)

noncomputable def upsertVectors (st : FaissConnector) (vectors : List (List ℝ)) (metadata : Option (List Payload)) :
    Except ConnectorError (List ℕ) × FaissConnector :=
  if vectors = [] then (.ok [], st)
  else
    match toMatrix vectors with
    | none => (.error .invalidPayload, st)
    | some raw =>
      let matrix := normalizeMatrix raw
      let payloads := metadata.getD (List.replicate matrix.length none)
      if payloads.length ≠ matrix.length then (.error .metadataLength, st)
      else
        match st.ensureIndexReady (matrix.headD []).length with
        | .error e => (.error e, st)
        | .ok ready => ready.addWithIds matrix payloads

/-- a hit of a search -/
structure Hit where
  id : ℕ
  score : ℝ
  metadata : Payload

def passes (filters : List (String × String)) (payload : Payload) : Bool :=
  filters.isEmpty || payload.any fun entries => !entries.isEmpty && filters.all fun item => entries.contains item

/-- `search`; `faiss` is the search of the index, which fills up with the id `-1` -/
noncomputable def search (faiss : List (ℕ × List ℝ) → List ℝ → ℕ → List (ℤ × ℝ)) (st : FaissConnector)
    (vector : List ℝ) (topK : ℤ) (filters : List (String × String)) : Except ConnectorError (List Hit) :=
  if topK ≤ 0 then .ok []
  else
    let query := (normalizeMatrix [vector]).headD []
    match st.index, st.dimension with
    | some (_, rows), some dimension =>
      if query.length ≠ dimension then .error (.queryDimension query.length dimension)
      else .ok (((faiss rows query topK.toNat).filter fun hit => hit.1 ≠ -1).filterMap fun hit =>
        let payload := ((st.metadata.lookup hit.1.toNat).getD none)
        if passes filters payload then some ⟨hit.1.toNat, hit.2, payload⟩ else none)
    | _, _ => .error .unavailable

end FaissConnector

/-! ## Operations -/

inductive Operation where
  | createIndex (dimension : ℕ) (metric : String)
  | deleteIndex
  | upsertVectors (vectors : List (List ℝ)) (metadata : Option (List Payload))

structure Added where
  id : ℕ
  vector : List ℝ
  batch : ℝ

noncomputable def addedOf (ids : List ℕ) (vectors : List (List ℝ)) : List Added :=
  (ids.zip vectors).map fun e => ⟨e.1, e.2, matrixNorm vectors⟩

/-- the connector, with the vectors that were added as they were given -/
structure Collection where
  connector : FaissConnector := {}
  added : List Added := []

/-- an operation; one that fails adds nothing -/
noncomputable def step (c : Collection) : Operation → Collection
  | .createIndex dimension metric =>
    match c.connector.createIndex dimension metric with
    | .ok st => { c with connector := st }
    | .error _ => c
  | .deleteIndex => { connector := c.connector.deleteIndex, added := [] }
  | .upsertVectors vectors metadata =>
    match c.connector.upsertVectors vectors metadata with
    | (.ok ids, st) =>
      { connector := st
        added := c.added ++ addedOf ids vectors }
    | (.error _, st) => { c with connector := st }

noncomputable def run (operations : List Operation) : Collection := operations.foldl step {}

/-! ## What an index holds -/

noncomputable def Added.row (a : Added) : List ℝ := if a.batch = 0 then a.vector else a.vector.map (· / a.batch)

theorem length_normalizeMatrix (matrix : List (List ℝ)) : (normalizeMatrix matrix).length = matrix.length := by
  unfold normalizeMatrix
  split_ifs
  · rfl
  · exact length_map _

/-- the rows of a normalised batch are those of its vectors -/
theorem zip_normalizeMatrix (ids : List ℕ) (vectors : List (List ℝ)) :
    ids.zip (normalizeMatrix vectors) = (addedOf ids vectors).map fun a => (a.id, a.row) := by
  rw [addedOf, List.map_map]
  by_cases hzero : matrixNorm vectors = 0
  · rw [normalizeMatrix, if_pos hzero]
    simp [Added.row, hzero, Function.comp_def]
  · rw [normalizeMatrix, if_neg hzero, zip_map_right]
    simp [Added.row, hzero, Function.comp_def]

variable {ids : List ℕ} {vectors : List (List ℝ)}

theorem map_id_addedOf (h : ids.length = vectors.length) : (addedOf ids vectors).map Added.id = ids := by
  rw [addedOf, List.map_map]
  exact map_fst_zip h.le

variable {a : Added}

theorem mem_addedOf (h : a ∈ addedOf ids vectors) : a.id ∈ ids ∧ a.vector ∈ vectors ∧ a.batch = matrixNorm vectors := by
  obtain ⟨e, he, rfl⟩ := mem_map.1 h
  obtain ⟨hid, hvector⟩ := of_mem_zip he
  exact ⟨hid, hvector, rfl⟩

theorem dot_self_nonneg (u : List ℝ) : 0 ≤ dot u u := by
  refine sum_nonneg fun x hx => ?_
  rw [zipWith_self] at hx
  obtain ⟨y, -, rfl⟩ := mem_map.1 hx
  exact mul_self_nonneg y

variable {u : List ℝ}

/-- a vector of a batch of norm zero is zero -/
theorem dot_self_of_matrixNorm (h : matrixNorm vectors = 0) (hu : u ∈ vectors) : dot u u = 0 := by
  have hnonneg : ∀ x ∈ vectors.map fun row => dot row row, 0 ≤ x := by
    intro x hx
    obtain ⟨row, -, rfl⟩ := mem_map.1 hx
    exact dot_self_nonneg row
  have hsum : (vectors.map fun row => dot row row).sum = 0 :=
    (Real.sqrt_eq_zero (sum_nonneg hnonneg)).1 h
  have hle := single_le_sum hnonneg _ (mem_map_of_mem (f := fun row => dot row row) hu)
  exact le_antisymm (hle.trans hsum.le) (dot_self_nonneg u)

/-- **What an index holds**: the rows of the vectors that were added, under ids of their own. -/
structure Holds (c : Collection) : Prop where
  rows : ∀ d rows, c.connector.index = some (d, rows) → rows = c.added.map (fun a => (a.id, a.row)) ∧
    c.connector.dimension = some d ∧ ∀ a ∈ c.added, a.vector.length = d
  empty : c.connector.index = none → c.added = []
  nodup : (c.added.map Added.id).Nodup
  below : ∀ a ∈ c.added, a.id < c.connector.nextId
  batch : ∀ a ∈ c.added, 0 ≤ a.batch ∧ (a.batch = 0 → dot a.vector a.vector = 0)

theorem length_of_toMatrix {vectors raw : List (List ℝ)} (h : toMatrix vectors = some raw) : raw = vectors := by
  unfold toMatrix at h
  split_ifs at h
  exact (Option.some.inj h).symm

theorem length_of_normalizeMatrix {d : ℕ}
    (h : (normalizeMatrix vectors).all (fun row => decide (row.length = d)) = true) : ∀ u ∈ vectors, u.length = d := by
  intro u hu
  unfold normalizeMatrix at h
  split_ifs at h
  · exact of_decide_eq_true (all_eq_true.1 h u hu)
  · have hrow := of_decide_eq_true (all_eq_true.1 h _ (mem_map_of_mem hu))
    rwa [length_map] at hrow

variable {c : Collection} {rows : List (ℕ × List ℝ)}

theorem Holds.add (h : Holds c) {ready : FaissConnector} {d : ℕ}
    (hindex : ready.index = some (d, rows)) (hrows : rows = c.added.map fun a => (a.id, a.row))
    (hdimension : ready.dimension = some d) (hlengths : ∀ a ∈ c.added, a.vector.length = d)
    (hnext : ready.nextId = c.connector.nextId) (vectors : List (List ℝ)) (payloads : List Payload) :
    Holds (match ready.addWithIds (normalizeMatrix vectors) payloads with
      | (.ok ids, st) => { connector := st, added := c.added ++ addedOf ids vectors }
      | (.error _, st) => { c with connector := st }) := by
  have hids : (addedOf (List.range' ready.nextId vectors.length) vectors).map Added.id =
      List.range' ready.nextId vectors.length := map_id_addedOf length_range'
  have hnew : ∀ a ∈ addedOf (List.range' ready.nextId vectors.length) vectors,
      c.connector.nextId ≤ a.id ∧ a.id < c.connector.nextId + vectors.length := by
    intro a ha
    obtain ⟨hid, -⟩ := mem_addedOf ha
    rw [hnext, mem_range'_1] at hid
    exact hid
  rw [FaissConnector.addWithIds, hindex, length_normalizeMatrix]
  dsimp only
  by_cases hall : ((normalizeMatrix vectors).all fun row => decide (row.length = d)) = true
  · rw [if_pos hall]
    refine ⟨?_, fun hnone => (nomatch hnone), ?_, ?_, ?_⟩
    · intro d' rows' heq
      cases heq
      refine ⟨by rw [hrows, zip_normalizeMatrix, map_append], hdimension, fun a ha => ?_⟩
      rcases mem_append.1 ha with ha | ha
      · exact hlengths a ha
      · exact length_of_normalizeMatrix hall _ (mem_addedOf ha).2.1
    · rw [map_append, hids]
      refine nodup_append.2 ⟨h.nodup, nodup_range', fun i hi j hj => ?_⟩
      obtain ⟨a, ha, rfl⟩ := mem_map.1 hi
      rw [hnext, mem_range'_1] at hj
      have hbelow := h.below a ha
      omega
    · intro a ha
      have hgoal : a.id < c.connector.nextId + vectors.length := by
        rcases mem_append.1 ha with ha | ha
        · have hbelow := h.below a ha
          omega
        · exact (hnew a ha).2
      rwa [← hnext] at hgoal
    · intro a ha
      rcases mem_append.1 ha with ha | ha
      · exact h.batch a ha
      · obtain ⟨-, hvector, hbatch⟩ := mem_addedOf ha
        rw [hbatch]
        exact ⟨Real.sqrt_nonneg _, fun hzero => dot_self_of_matrixNorm hzero hvector⟩
  · rw [if_neg hall]
    refine ⟨?_, fun hnone => (nomatch hnone), h.nodup, fun a ha => ?_, h.batch⟩
    · intro d' rows' heq
      cases heq
      exact ⟨hrows, hdimension, hlengths⟩
    · have hbelow := h.below a ha
      rw [← hnext] at hbelow
      exact Nat.lt_add_right _ hbelow

theorem of_ensureIndexReady (h : Holds c) {dimension : ℕ} {ready : FaissConnector}
    (hready : c.connector.ensureIndexReady dimension = .ok ready) :
    ∃ d rows, ready.index = some (d, rows) ∧ rows = c.added.map (fun a => (a.id, a.row)) ∧
      ready.dimension = some d ∧ (∀ a ∈ c.added, a.vector.length = d) ∧ ready.nextId = c.connector.nextId := by
  unfold FaissConnector.ensureIndexReady at hready
  dsimp only at hready
  split_ifs at hready
  cases hready
  cases hindex : c.connector.index with
  | none =>
    have hempty := h.empty hindex
    exact ⟨_, _, rfl, by rw [hempty]; rfl, rfl, by rw [hempty]; exact fun a ha => (nomatch ha), rfl⟩
  | some pair =>
    obtain ⟨d, rows⟩ := pair
    obtain ⟨hrows, hdimension, hlengths⟩ := h.rows d rows hindex
    exact ⟨d, rows, rfl, hrows, by rw [hdimension]; rfl, hlengths, rfl⟩

/-- **Each operation** keeps an index holding what was added. -/
theorem step_holds (h : Holds c) (operation : Operation) : Holds (step c operation) := by
  cases operation with
  | createIndex dimension metric =>
    rw [step, FaissConnector.createIndex]
    split_ifs with hindex hmetric
    · exact h
    · exact h
    · rw [Bool.not_eq_true, Option.isSome_eq_false_iff, Option.isNone_iff_eq_none] at hindex
      have hempty := h.empty hindex
      refine ⟨fun d rows heq => ?_, fun hnone => (nomatch hnone), h.nodup, h.below, h.batch⟩
      cases heq
      exact ⟨by rw [hempty]; rfl, rfl, by rw [hempty]; exact fun a ha => (nomatch ha)⟩
  | deleteIndex =>
    exact ⟨fun d rows heq => (nomatch heq), fun _ => rfl, nodup_nil, fun a ha => (nomatch ha),
      fun a ha => (nomatch ha)⟩
  | upsertVectors vectors metadata =>
    rw [step, FaissConnector.upsertVectors]
    by_cases hnil : vectors = []
    · rw [if_pos hnil, hnil]
      simpa [addedOf] using h
    · rw [if_neg hnil]
      cases hraw : toMatrix vectors with
      | none => exact h
      | some raw =>
        obtain rfl := length_of_toMatrix hraw
        dsimp only
        split_ifs with hpayloads
        · exact h
        · cases hready : c.connector.ensureIndexReady ((normalizeMatrix raw).headD []).length with
          | error e => exact h
          | ok ready =>
            obtain ⟨d, rows, hindex, hrows, hdimension, hlengths, hnext⟩ := of_ensureIndexReady h hready
            exact h.add hindex hrows hdimension hlengths hnext raw _

/-- **A collection** holds what was added after any operations. -/
theorem run_holds (operations : List Operation) : Holds (run operations) := by
  have hfold : ∀ (l : List Operation) (c : Collection), Holds c → Holds (l.foldl step c) := by
    intro l
    induction l with
    | nil => exact fun c h => h
    | cons operation l ih => exact fun c h => ih _ (step_holds h operation)
  refine hfold operations {} ⟨?_, fun _ => rfl, nodup_nil, fun a ha => (nomatch ha), fun a ha => (nomatch ha)⟩
  intro d rows hindex
  cases hindex

/-! ## Scores -/

noncomputable def norm (u : List ℝ) : ℝ := Real.sqrt (dot u u)

/-- the cosine of two vectors -/
noncomputable def cosineOf (u q : List ℝ) : ℝ := dot u q / (norm u * norm q)

/-- a query as it is looked for -/
noncomputable def normalizeQuery (q : List ℝ) : List ℝ := (normalizeMatrix [q]).headD []

noncomputable def Added.share (a : Added) : ℝ := norm a.vector / a.batch

theorem dot_cons (x y : ℝ) (u v : List ℝ) : dot (x :: u) (y :: v) = x * y + dot u v := sum_cons

theorem dot_map_div_left (u v : List ℝ) (k : ℝ) : dot (u.map (· / k)) v = dot u v / k := by
  induction u generalizing v with
  | nil => simp [dot]
  | cons x u ih =>
    cases v with
    | nil => simp [dot]
    | cons y v =>
      rw [map_cons, dot_cons, dot_cons, ih, add_div, div_mul_eq_mul_div]

theorem dot_comm (u v : List ℝ) : dot u v = dot v u := by
  rw [dot, dot, zipWith_comm]
  simp only [mul_comm]

theorem dot_map_div_right (u v : List ℝ) (k : ℝ) : dot u (v.map (· / k)) = dot u v / k := by
  rw [dot_comm, dot_map_div_left, dot_comm]

theorem eq_zero_of_dot_self (h : dot u u = 0) : ∀ x ∈ u, x = 0 := by
  induction u with
  | nil => exact fun x hx => nomatch hx
  | cons y u ih =>
    rw [dot_cons] at h
    have hy := mul_self_nonneg y
    have hu := dot_self_nonneg u
    intro x hx
    rcases mem_cons.1 hx with rfl | hx
    · exact mul_self_eq_zero.1 (by linarith)
    · exact ih (by linarith) x hx

theorem dot_eq_zero_of_left (h : dot u u = 0) (v : List ℝ) : dot u v = 0 := by
  have hzero := eq_zero_of_dot_self h
  refine sum_eq_zero fun x hx => ?_
  obtain ⟨i, hi, rfl⟩ := getElem_of_mem hx
  rw [getElem_zipWith, hzero _ (getElem_mem _), zero_mul]

theorem norm_eq_zero_iff (u : List ℝ) : norm u = 0 ↔ dot u u = 0 := Real.sqrt_eq_zero (dot_self_nonneg u)

theorem normalizeQuery_eq (q : List ℝ) : normalizeQuery q = if norm q = 0 then q else q.map (· / norm q) := by
  have hnorm : matrixNorm [q] = norm q := by
    rw [matrixNorm, norm, map_singleton, sum_singleton]
  rw [normalizeQuery, normalizeMatrix, hnorm]
  split_ifs <;> rfl

/-- **Scores** are cosines, scaled by the share of a vector in the length of its batch. -/
theorem score_eq (hbatch : a.batch = 0 → dot a.vector a.vector = 0) (q : List ℝ) :
    dot a.row (normalizeQuery q) = a.share * cosineOf a.vector q := by
  rw [normalizeQuery_eq, Added.row, Added.share, cosineOf]
  by_cases hv : dot a.vector a.vector = 0
  · have hrow : dot a.row a.row = 0 := by
      rw [Added.row]
      split_ifs
      · exact hv
      · rw [dot_map_div_left, dot_map_div_right, hv, zero_div, zero_div]
    rw [Added.row] at hrow
    rw [dot_eq_zero_of_left hrow, (norm_eq_zero_iff _).2 hv, zero_div, zero_mul]
  · have hb : a.batch ≠ 0 := mt hbatch hv
    have hn : norm a.vector ≠ 0 := mt (norm_eq_zero_iff _).1 hv
    rw [if_neg hb]
    by_cases hq : norm q = 0
    · rw [if_pos hq, dot_comm, dot_eq_zero_of_left ((norm_eq_zero_iff _).1 hq), hq, mul_zero, div_zero, mul_zero]
    · rw [if_neg hq, dot_map_div_left, dot_map_div_right]
      field_simp

/-! ## Rankings -/

noncomputable def valueOf (f : Added → ℝ) (added : List Added) (i : ℕ) : ℝ :=
  ((added.find? fun a => a.id = i).map f).getD 0

theorem find?_id {added : List Added} (hnodup : (added.map Added.id).Nodup) (ha : a ∈ added) :
    (added.find? fun b => b.id = a.id) = some a := by
  induction added with
  | nil => cases ha
  | cons b added ih =>
    rw [map_cons, nodup_cons] at hnodup
    rcases mem_cons.1 ha with rfl | ha
    · rw [find?_cons_of_pos (by simp)]
    · rw [find?_cons_of_neg, ih hnodup.2 ha]
      rw [decide_eq_true_eq]
      exact fun heq => hnodup.1 (heq ▸ mem_map_of_mem ha)

theorem valueOf_id {added : List Added} (hnodup : (added.map Added.id).Nodup) (f : Added → ℝ)
    (ha : a ∈ added) : valueOf f added a.id = f a := by
  rw [valueOf, find?_id hnodup ha]
  rfl

noncomputable def scoreOf (rows : List (ℕ × List ℝ)) (query : List ℝ) (i : ℕ) : ℝ :=
  (rows.lookup i).elim 0 fun row => dot row query

theorem scoreOf_rows (added : List Added) (query : List ℝ) (i : ℕ) :
    scoreOf (added.map fun a => (a.id, a.row)) query i = valueOf (fun a => dot a.row query) added i := by
  rw [scoreOf, valueOf]
  induction added with
  | nil => rfl
  | cons a added ih =>
    by_cases hid : a.id = i
    · rw [find?_cons_of_pos (by simpa using hid), map_cons, ← hid, lookup_cons_self]
      rfl
    · have hbeq : (i == a.id) = false := by
        rw [beq_eq_false_iff_ne]
        exact fun heq => hid heq.symm
      rw [find?_cons_of_neg (by simpa using hid), map_cons, lookup_cons, hbeq]
      exact ih

/-- `index.search`: the `k` best rows by their products with the query, filled up with the id `-1` -/
def IsSearch (rows : List (ℕ × List ℝ)) (query : List ℝ) (k : ℕ) (found : List (ℤ × ℝ)) : Prop :=
  ∃ ids fill, IsRanking (scoreOf rows query) (rows.map Prod.fst) k ids ∧
    found = ids.map (fun i : ℕ => ((i : ℤ), scoreOf rows query i)) ++ List.replicate (k - ids.length) (-1, fill)

def Gives (st : FaissConnector) (query : List ℝ) (k : ℕ) (ids : List ℕ) : Prop :=
  ∃ faiss hits, (∀ d rows, st.index = some (d, rows) →
      IsSearch rows (normalizeQuery query) k (faiss rows (normalizeQuery query) k)) ∧
    st.search faiss query k [] = .ok hits ∧ hits.map FaissConnector.Hit.id = ids

/-- **Ranked by cosine**: a search for any query may give exactly the rankings of the vectors that were added by their
cosine with the query. -/
def RanksByCosine (c : Collection) : Prop :=
  ∀ d rows, c.connector.index = some (d, rows) → ∀ query : List ℝ, query.length = d → ∀ k, 0 < k → ∀ ids,
    Gives c.connector query k ids ↔
      IsRanking (valueOf (fun a => cosineOf a.vector query) c.added) (c.added.map Added.id) k ids

theorem length_normalizeQuery (query : List ℝ) : (normalizeQuery query).length = query.length := by
  rw [normalizeQuery_eq]
  split_ifs
  · rfl
  · exact length_map _

/-- the hits of a search without filters are those of the index -/
theorem search_ids (faiss : List (ℕ × List ℝ) → List ℝ → ℕ → List (ℤ × ℝ)) {st : FaissConnector} {d : ℕ} (hindex : st.index = some (d, rows)) (hdimension : st.dimension = some d)
    {query : List ℝ} (hquery : query.length = d) {k : ℕ} (hk : 0 < k) {fill : ℝ}
    (hfound : faiss rows (normalizeQuery query) k =
      ids.map (fun i : ℕ => ((i : ℤ), scoreOf rows (normalizeQuery query) i)) ++
        List.replicate (k - ids.length) (-1, fill)) :
    ∃ hits, st.search faiss query k [] = .ok hits ∧ hits.map FaissConnector.Hit.id = ids := by
  have hkept : (faiss rows (normalizeQuery query) k).filter (fun hit => decide (hit.1 ≠ -1)) =
      ids.map fun i : ℕ => ((i : ℤ), scoreOf rows (normalizeQuery query) i) := by
    rw [hfound, filter_append, filter_eq_self.2, filter_eq_nil_iff.2, append_nil]
    · intro hit hhit
      rw [eq_of_mem_replicate hhit]
      simp
    · intro hit hhit
      obtain ⟨i, -, rfl⟩ := mem_map.1 hhit
      rw [decide_eq_true_eq]
      omega
  have hpositive : ¬((k : ℤ) ≤ 0) := by omega
  have hquery' : (normalizeQuery query).length = d := (length_normalizeQuery query).trans hquery
  refine ⟨ids.map fun i => ⟨i, scoreOf rows (normalizeQuery query) i, (st.metadata.lookup i).getD none⟩, ?_, ?_⟩
  · rw [FaissConnector.search, if_neg hpositive, hindex, hdimension]
    change (if (normalizeQuery query).length ≠ d then _ else _) = _
    rw [if_neg (not_not.2 hquery'), Int.toNat_natCast]
    change Except.ok (((faiss rows (normalizeQuery query) k).filter fun hit => decide (hit.1 ≠ -1)).filterMap _) = _
    rw [hkept, filterMap_map, ← filterMap_eq_map]
    rfl
  · rw [List.map_map]
    exact List.map_id _

/-- **What a search gives** are the rankings by the scores. -/
theorem gives_iff (h : Holds c) {d : ℕ}
    (hindex : c.connector.index = some (d, rows)) {query : List ℝ} (hquery : query.length = d) {k : ℕ} (hk : 0 < k)
    (ids : List ℕ) : Gives c.connector query k ids ↔
      IsRanking (valueOf (fun a => a.share * cosineOf a.vector query) c.added) (c.added.map Added.id) k ids := by
  obtain ⟨hrows, hdimension, -⟩ := h.rows d rows hindex
  have hids : rows.map Prod.fst = c.added.map Added.id := by
    rw [hrows, List.map_map]
    rfl
  have hscore : ∀ i ∈ c.added.map Added.id, scoreOf rows (normalizeQuery query) i =
      valueOf (fun a => a.share * cosineOf a.vector query) c.added i := by
    intro i hi
    obtain ⟨a, ha, rfl⟩ := mem_map.1 hi
    rw [hrows, scoreOf_rows, valueOf_id h.nodup _ ha, valueOf_id h.nodup _ ha, score_eq (h.batch a ha).2]
  have hranking : IsRanking (scoreOf rows (normalizeQuery query)) (rows.map Prod.fst) k ids ↔
      IsRanking (valueOf (fun a => a.share * cosineOf a.vector query) c.added) (c.added.map Added.id) k ids := by
    rw [hids]
    exact ⟨fun hr => hr.congr fun i hi j hj => by rw [hscore i hi, hscore j hj],
      fun hr => hr.congr fun i hi j hj => by rw [hscore i hi, hscore j hj]⟩
  rw [← hranking]
  constructor
  · rintro ⟨faiss, hits, hfaiss, hhits, rfl⟩
    obtain ⟨ids', fill, hids', hfound⟩ := hfaiss d rows hindex
    obtain ⟨hits', hhits', hmap⟩ := search_ids faiss hindex hdimension hquery hk hfound
    rw [hhits] at hhits'
    rw [Except.ok.inj hhits', hmap]
    exact hids'
  · intro hr
    set found := ids.map (fun i : ℕ => ((i : ℤ), scoreOf rows (normalizeQuery query) i)) ++
      List.replicate (k - ids.length) (-1, (0 : ℝ)) with hfound
    obtain ⟨hits, hhits, hmap⟩ := search_ids (fun _ _ _ => found) hindex hdimension hquery hk hfound
    refine ⟨fun _ _ _ => found, hits, fun d' rows' hindex' => ?_, hhits, hmap⟩
    rw [hindex] at hindex'
    cases hindex'
    exact ⟨ids, 0, hr, hfound⟩

/-! ## Lengths and directions -/

section Directions

variable {d : ℕ}

theorem dot_ofFn (f g : Fin d → ℝ) : dot (List.ofFn f) (List.ofFn g) =
    inner ℝ (WithLp.toLp 2 f : EuclideanSpace ℝ (Fin d)) (WithLp.toLp 2 g) := by
  have hsum : dot (List.ofFn f) (List.ofFn g) = ∑ i, f i * g i := by
    induction d with
    | zero => simp [dot]
    | succ d ih => rw [ofFn_succ, ofFn_succ, dot_cons, ih, Fin.sum_univ_succ]
  rw [hsum, PiLp.inner_apply]
  exact Finset.sum_congr rfl fun i _ => by simp [mul_comm]

theorem norm_ofFn (f : Fin d → ℝ) :
    norm (List.ofFn f) = ‖(WithLp.toLp 2 f : EuclideanSpace ℝ (Fin d))‖ := by
  rw [norm, dot_ofFn, real_inner_self_eq_norm_sq, Real.sqrt_sq (norm_nonneg _)]

theorem cosineOf_ofFn (f g : Fin d → ℝ) : cosineOf (List.ofFn f) (List.ofFn g) =
    cosine (WithLp.toLp 2 f : EuclideanSpace ℝ (Fin d)) (WithLp.toLp 2 g) := by
  rw [cosineOf, cosine, dot_ofFn, norm_ofFn, norm_ofFn]

theorem exists_ofFn (h : u.length = d) : ∃ f : Fin d → ℝ, u = List.ofFn f := by
  subst h
  exact ⟨u.get, (ofFn_get u).symm⟩

/-- the second vector points in the direction opposite to the first -/
def Opposite (u v : List ℝ) : Prop := ∃ k : ℝ, 0 < k ∧ v = u.map fun x => -(k * x)

theorem opposite_ofFn (f g : Fin d → ℝ) : Opposite (List.ofFn f) (List.ofFn g) ↔
    ∃ k : ℝ, 0 < k ∧ (WithLp.toLp 2 g : EuclideanSpace ℝ (Fin d)) = k • -(WithLp.toLp 2 f) := by
  refine exists_congr fun k => and_congr_right fun _ => ?_
  rw [map_ofFn]
  constructor
  · intro h
    rw [ofFn_injective h]
    ext i
    simp
  · intro h
    congr 1
    funext i
    have hi := congrArg (fun x : EuclideanSpace ℝ (Fin d) => x i) h
    simpa using hi

/-- **Two vectors** are ordered by their scores as by their cosines exactly if they have the same share in the lengths
of their batches or point in opposite directions. -/
theorem ordered_iff {u v : List ℝ} (hu : u.length = d) (hv : v.length = d) (hune : norm u ≠ 0) (hvne : norm v ≠ 0)
    {r s : ℝ} (hr : 0 < r) (hs : 0 < s) :
    (∀ query : List ℝ, query.length = d →
      (r * cosineOf u query ≤ s * cosineOf v query ↔ cosineOf u query ≤ cosineOf v query) ∧
        (s * cosineOf v query ≤ r * cosineOf u query ↔ cosineOf v query ≤ cosineOf u query)) ↔
      r = s ∨ Opposite u v := by
  obtain ⟨f, rfl⟩ := exists_ofFn hu
  obtain ⟨g, rfl⟩ := exists_ofFn hv
  rw [norm_ofFn, norm_ne_zero_iff] at hune hvne
  rw [opposite_ofFn, ← order_iff hune hvne hr hs]
  constructor
  · intro h q
    have hq := h (List.ofFn q.ofLp) length_ofFn
    rwa [cosineOf_ofFn, cosineOf_ofFn] at hq
  · intro h query hquery
    obtain ⟨q, rfl⟩ := exists_ofFn hquery
    rw [cosineOf_ofFn, cosineOf_ofFn]
    exact h _

end Directions

/-- **Even lengths**: vectors that are not zero and do not point in opposite directions have the same share in the
lengths of their batches. -/
def EvenLengths (added : List Added) : Prop :=
  ∀ a ∈ added, ∀ b ∈ added, norm a.vector ≠ 0 → norm b.vector ≠ 0 → ¬Opposite a.vector b.vector → a.share = b.share

/-- scores and cosines order the vectors that were added alike -/
def Ordered (c : Collection) : Prop :=
  ∀ d rows, c.connector.index = some (d, rows) → ∀ query : List ℝ, query.length = d → ∀ a ∈ c.added, ∀ b ∈ c.added,
    (a.share * cosineOf a.vector query ≤ b.share * cosineOf b.vector query ↔
      cosineOf a.vector query ≤ cosineOf b.vector query)

/-- the rankings by scores and by cosines are the same exactly if both order the vectors alike -/
theorem ranksByCosine_iff_ordered (h : Holds c) : RanksByCosine c ↔ Ordered c := by
  refine forall_congr' fun d => forall_congr' fun rows => forall_congr' fun hindex => forall_congr' fun query =>
    forall_congr' fun hquery => ?_
  have hrankings := rankings_iff (valueOf (fun a => a.share * cosineOf a.vector query) c.added)
    (valueOf (fun a => cosineOf a.vector query) c.added) h.nodup
  have hgives : (∀ k, 0 < k → ∀ ids, Gives c.connector query k ids ↔
      IsRanking (valueOf (fun a => cosineOf a.vector query) c.added) (c.added.map Added.id) k ids) ↔
      ∀ k, 0 < k → ∀ ids,
        IsRanking (valueOf (fun a => a.share * cosineOf a.vector query) c.added) (c.added.map Added.id) k ids ↔
          IsRanking (valueOf (fun a => cosineOf a.vector query) c.added) (c.added.map Added.id) k ids :=
    forall_congr' fun k => forall_congr' fun hk => forall_congr' fun ids => by
      rw [gives_iff h hindex hquery hk ids]
  rw [hgives, hrankings]
  constructor
  · intro hids a ha b hb
    have hab := hids a.id (mem_map_of_mem ha) b.id (mem_map_of_mem hb)
    rwa [valueOf_id h.nodup _ ha, valueOf_id h.nodup _ hb, valueOf_id h.nodup _ ha, valueOf_id h.nodup _ hb] at hab
  · intro hadded i hi j hj
    obtain ⟨a, ha, rfl⟩ := mem_map.1 hi
    obtain ⟨b, hb, rfl⟩ := mem_map.1 hj
    rw [valueOf_id h.nodup _ ha, valueOf_id h.nodup _ hb, valueOf_id h.nodup _ ha, valueOf_id h.nodup _ hb]
    exact hadded a ha b hb

/-- a vector that is not zero has a share, and the zero vector has cosine zero -/
theorem share_pos (hbatch : 0 ≤ a.batch ∧ (a.batch = 0 → dot a.vector a.vector = 0))
    (hne : norm a.vector ≠ 0) : 0 < a.share := by
  have hb : a.batch ≠ 0 := fun hzero => hne ((norm_eq_zero_iff _).2 (hbatch.2 hzero))
  exact div_pos (lt_of_le_of_ne (Real.sqrt_nonneg _) (Ne.symm hne)) (lt_of_le_of_ne hbatch.1 (Ne.symm hb))

theorem cosineOf_of_norm (h : norm u = 0) (query : List ℝ) : cosineOf u query = 0 := by
  rw [cosineOf, h, zero_mul, div_zero]

/-- **Scores order vectors as cosines do** exactly if the vectors have even lengths. -/
theorem ordered_iff_even (h : Holds c) : Ordered c ↔ EvenLengths c.added := by
  cases hindex : c.connector.index with
  | none =>
    have hempty := h.empty hindex
    refine iff_of_true (fun d rows heq => ?_) fun a ha => ?_
    · rw [hindex] at heq
      cases heq
    · rw [hempty] at ha
      cases ha
  | some pair =>
    obtain ⟨d, rows⟩ := pair
    obtain ⟨-, -, hlengths⟩ := h.rows d rows hindex
    constructor
    · intro hordered a ha b hb hane hbne hopposite
      refine ((ordered_iff (hlengths a ha) (hlengths b hb) hane hbne (share_pos (h.batch a ha) hane)
        (share_pos (h.batch b hb) hbne)).1 fun query hquery => ?_).resolve_right hopposite
      exact ⟨hordered d rows hindex query hquery a ha b hb, hordered d rows hindex query hquery b hb a ha⟩
    · intro heven d' rows' heq query hquery a ha b hb
      rw [hindex] at heq
      cases heq
      by_cases hane : norm a.vector = 0
      · rw [cosineOf_of_norm hane, mul_zero]
        by_cases hbne : norm b.vector = 0
        · rw [cosineOf_of_norm hbne, mul_zero]
        · exact mul_nonneg_iff_of_pos_left (share_pos (h.batch b hb) hbne)
      · by_cases hbne : norm b.vector = 0
        · rw [cosineOf_of_norm hbne, mul_zero]
          have hpos := share_pos (h.batch a ha) hane
          exact ⟨fun hle => nonpos_of_mul_nonpos_right hle hpos, fun hle => mul_nonpos_of_nonneg_of_nonpos hpos.le hle⟩
        · have hpair := (ordered_iff (hlengths a ha) (hlengths b hb) hane hbne (share_pos (h.batch a ha) hane)
            (share_pos (h.batch b hb) hbne)).2 (or_iff_not_imp_right.2 (heven a ha b hb hane hbne))
          exact (hpair query hquery).1

/-- **A collection ranks by cosine** after any operations if and only if its vectors have even lengths. -/
theorem ranksByCosine_iff (operations : List Operation) :
    RanksByCosine (run operations) ↔ EvenLengths (run operations).added :=
  (ranksByCosine_iff_ordered (run_holds operations)).trans (ordered_iff_even (run_holds operations))

/-! ## A batch of two lengths -/

/-- vectors of lengths 3 and 4 in one batch -/
noncomputable def threeAndFour : List (List ℝ) := [[3, 0], [0, 4]]

theorem matrixNorm_threeAndFour : matrixNorm threeAndFour = 5 := by
  have hsum : (threeAndFour.map fun row => dot row row).sum = 5 ^ 2 := by
    norm_num [threeAndFour, dot]
  rw [matrixNorm, hsum, Real.sqrt_sq (by norm_num)]

theorem added_threeAndFour : (run [.upsertVectors threeAndFour none]).added = [⟨1, [3, 0], 5⟩, ⟨2, [0, 4], 5⟩] := by
  have hmatrix : normalizeMatrix threeAndFour = [[3 / 5, 0 / 5], [0 / 5, 4 / 5]] := by
    rw [normalizeMatrix, matrixNorm_threeAndFour, if_neg (by norm_num)]
    rfl
  have hraw : toMatrix threeAndFour = some threeAndFour := by simp [toMatrix, threeAndFour]
  have hsome : threeAndFour ≠ [] := cons_ne_nil _ _
  simp [run, step, FaissConnector.upsertVectors, hsome, hraw, hmatrix, FaissConnector.ensureIndexReady,
    FaissConnector.addWithIds, addedOf, matrixNorm_threeAndFour]
  rfl

/-- **Two lengths in one batch** are not ranked by cosine. -/
theorem two_lengths : ¬RanksByCosine (run [.upsertVectors threeAndFour none]) := by
  have hholds := run_holds [.upsertVectors threeAndFour none]
  rw [ranksByCosine_iff_ordered hholds, ordered_iff_even hholds, added_threeAndFour]
  intro heven
  have hthree : norm [3, 0] = 3 := by
    rw [norm, show dot [3, 0] [3, 0] = 3 ^ 2 by norm_num [dot], Real.sqrt_sq (by norm_num)]
  have hfour : norm [0, 4] = 4 := by
    rw [norm, show dot [0, 4] [0, 4] = 4 ^ 2 by norm_num [dot], Real.sqrt_sq (by norm_num)]
  have hopposite : ¬Opposite [3, 0] [0, 4] := by
    rintro ⟨k, -, hk⟩
    norm_num at hk
  have hshare := heven ⟨1, [3, 0], 5⟩ (by simp) ⟨2, [0, 4], 5⟩ (by simp) (by rw [hthree]; norm_num)
    (by rw [hfour]; norm_num) hopposite
  rw [Added.share, Added.share, hthree, hfour] at hshare
  norm_num at hshare

end Langbridge.Connectors.FaissVectors
