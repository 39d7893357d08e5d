/-
Updates of a connector (`runtime/application/connectors.py`): its metadata is not stored as it is given but split from
the connection and the metadata merged, and an update that gives no metadata merges the stored one again. The connector
runs under its connection, with the metadata laid under it and the secrets over it (`build_connector_runtime_payload`).
-/
import Langbridge.Core.Layers

namespace Langbridge.Runtime.ConnectorUpdates

open Core Dict Option

/-! ## Connectors -/

/-- `ConnectionMetadata`: the known keys, and the others under `extra` -/
structure ConnectionMetadata where
  fields : Dict String Json
  extra : Dict String Json

/-- `ConnectorMetadata`; the references to secrets and the policy are validated -/
structure Connector (S P : Type) where
  description : Option String
  connection : Dict String Json
  metadata : Option ConnectionMetadata
  secrets : Dict String S
  policy : Option P

/-- what a connector is created from -/
structure CreateRequest (S P : Type) where
  description : Option String
  connection : Dict String Json
  metadata : Dict String Json
  secrets : Dict String S
  policy : Option P

/-- the fields of an update that are given -/
structure UpdateRequest (S P : Type) where
  description : Option (Option String) := none
  connection : Option (Dict String Json) := none
  metadata : Option (Dict String Json) := none
  secrets : Option (Dict String S) := none
  policy : Option (Option P) := none

variable {S P : Type}

/-- `metadata.model_dump()` -/
def ConnectionMetadata.dump (m : ConnectionMetadata) : Dict String Json := m.fields.set "extra" (.obj m.extra.entries)

/-- what is merged into the connection where an update gives no metadata -/
def Connector.currentMetadata (c : Connector S P) : Dict String Json :=
  match c.metadata with
  | none => Dict.empty
  | some m => m.dump

/-- `_extract_connection_metadata`; the key `extra` is overwritten where it is a known one -/
def extractConnectionMetadata (knownKeys : List String) (payload : Dict String Json) : Option ConnectionMetadata :=
  if payload.entries = [] then none
  else some ⟨payload.restrict fun k => k ∈ knownKeys ∧ k ≠ "extra", payload.restrict fun k => k ∉ knownKeys⟩

/-- `value is not None` -/
def notNull (v : Json) : Bool := !v.isNull

def buildConnectorRuntimePayload (resolve : S → Json) (c : Connector S P) : Dict String Json :=
  let config := match c.metadata with
    | none => c.connection
    | some m => Dict.setDefaults notNull (Dict.setDefaults notNull c.connection m.fields) m.extra
  config.update (c.secrets.mapValues resolve)

section Requests

variable [PyText] (connectorType : String) (knownKeys : List String)

/-- `str(value or "").strip()` -/
def strippedText (v : Json) : String := PyText.strip (v.orElse (.str "")).text

def normalizeConnectionPayload (payload : Dict String Json) : Dict String Json :=
  let normalized := match payload.get? "path" with
    | none => payload
    | some v =>
      if strippedText v = "" then payload
      else if connectorType = "SQLITE" then (payload.set "location" (.str (strippedText v))).erase "path"
      else payload.set "path" (.str (strippedText v))
  match normalized.get? "location" with
  | none => normalized
  | some v =>
    if connectorType = "SQLITE" ∧ strippedText v ≠ "" then normalized.set "location" (.str (strippedText v))
    else normalized

/-- `create_connector`, where the request is accepted -/
def createConnector (r : CreateRequest S P) : Connector S P :=
  let connection := normalizeConnectionPayload connectorType r.connection
  ⟨r.description, connection, extractConnectionMetadata knownKeys (connection.update r.metadata), r.secrets, r.policy⟩

/-- `str(description).strip() or None` -/
def strippedDescription (description : Option String) : Option String :=
  (description.map PyText.strip).filter (· ≠ "")

/-- the connector that an update makes of a stored one -/
def updatedConnector (c : Connector S P) (r : UpdateRequest S P) : Connector S P :=
  let connection := (r.connection.map (normalizeConnectionPayload connectorType)).getD c.connection
  { description := strippedDescription (r.description.getD c.description)
    connection := connection
    metadata := extractConnectionMetadata knownKeys (connection.update (r.metadata.getD c.currentMetadata))
    secrets := r.secrets.getD c.secrets
    policy := r.policy.getD c.policy }

/-- `update_connector`; a configuration that the connector's type does not accept is refused -/
def updateConnector (resolve : S → Json) (accepts : Dict String Json → Bool) (c : Connector S P)
    (r : UpdateRequest S P) : Option (Connector S P) :=
  let updated := updatedConnector connectorType knownKeys c r
  if accepts (buildConnectorRuntimePayload resolve updated) then some updated else none

end Requests

/-! ## What an update should leave -/

/-- a request that gives no field -/
def UpdateRequest.Idle (r : UpdateRequest S P) : Prop :=
  r.description = none ∧ r.connection = none ∧ r.metadata = none ∧ r.secrets = none ∧ r.policy = none

/-- what has been given last -/
def CreateRequest.after (g : CreateRequest S P) (r : UpdateRequest S P) : CreateRequest S P where
  description := r.description.getD g.description
  connection := r.connection.getD g.connection
  metadata := r.metadata.getD g.metadata
  secrets := r.secrets.getD g.secrets
  policy := r.policy.getD g.policy

/-- two dictionaries are equal -/
def Same {β : Type} (d e : Dict String β) : Prop := ∀ k, d.get? k = e.get? k

/-- the stored metadata is equal -/
def SameMetadata : Option ConnectionMetadata → Option ConnectionMetadata → Prop
  | none, none => True
  | some m, some m' => Same m.fields m'.fields ∧ Same m.extra m'.extra
  | _, _ => False

structure Unchanged (c c' : Connector S P) : Prop where
  description : c'.description = c.description
  connection : c'.connection = c.connection
  metadata : SameMetadata c.metadata c'.metadata
  secrets : c'.secrets = c.secrets
  policy : c'.policy = c.policy

section Runs

variable [PyText] (connectorType : String) (knownKeys : List String) (resolve : S → Json)
  (accepts : Dict String Json → Bool)

structure RunsAsGiven (c : Connector S P) (g : CreateRequest S P) : Prop where
  config : Same (buildConnectorRuntimePayload resolve c)
    (buildConnectorRuntimePayload resolve (createConnector connectorType knownKeys g))
  policy : c.policy = (createConnector connectorType knownKeys g).policy

/-- along updates a connector runs as one made from scratch from what was given last, and a request without fields
leaves it unchanged; one that is refused gives nothing -/
def HoldsAlong (c : Connector S P) (g : CreateRequest S P) : List (UpdateRequest S P) → Prop
  | [] => RunsAsGiven connectorType knownKeys resolve c g
  | r :: rs => RunsAsGiven connectorType knownKeys resolve c g ∧
    match updateConnector connectorType knownKeys resolve accepts c r with
    | none => HoldsAlong c g rs
    | some c' => (r.Idle → Unchanged c c') ∧ HoldsAlong c' (g.after r) rs

/-- a dictionary has nothing or null at a key -/
def NullAt (d : Dict String Json) (k : String) : Prop := ∀ v, d.get? k = some v → v.isNull = true

/-- an update is careful with a stored connector. Where it gives no metadata and some is stored: each key that neither
the connection nor the secrets have is a known key that the stored metadata has only as it was given, or one that was
not given and is not `extra`. Where it gives nothing: the description is stripped, and no metadata is stored, or `extra`
is a known key and the other keys are stored as the connection has them. -/
structure Careful (c : Connector S P) (g : CreateRequest S P) (r : UpdateRequest S P) : Prop where
  metadata : r.metadata = none → ∀ m, c.metadata = some m → ∀ k,
    (updatedConnector connectorType knownKeys c r).connection.get? k = none →
    (updatedConnector connectorType knownKeys c r).secrets.get? k = none →
      (k ∉ knownKeys → k ≠ "extra" ∧ NullAt g.metadata k) ∧
      (k ∈ knownKeys → k ≠ "extra" → g.metadata.get? k = none → NullAt m.fields k)
  idle : r.Idle → strippedDescription c.description = c.description ∧ ∀ m, c.metadata = some m →
    "extra" ∈ knownKeys ∧ ∀ k, k ∉ knownKeys → m.extra.get? k = c.connection.get? k

def CarefulAlong (c : Connector S P) (g : CreateRequest S P) : List (UpdateRequest S P) → Prop
  | [] => True
  | r :: rs =>
    match updateConnector connectorType knownKeys resolve accepts c r with
    | none => CarefulAlong c g rs
    | some c' => Careful connectorType knownKeys c g r ∧ CarefulAlong c' (g.after r) rs

end Runs

/-! ## The configuration -/

section Config

variable {knownKeys : List String} {resolve : S → Json}

/-- what stored metadata lays under a connection at a key -/
def laid (metadata : Option ConnectionMetadata) (k : String) : Option Json :=
  metadata.bind fun m => ((m.fields.get? k).filter notNull).or ((m.extra.get? k).filter notNull)

theorem get?_payload (c : Connector S P) (k : String) : (buildConnectorRuntimePayload resolve c).get? k =
    ((c.secrets.get? k).map resolve).or ((c.connection.get? k).or (laid c.metadata k)) := by
  unfold buildConnectorRuntimePayload laid
  rw [get?_update, get?_mapValues]
  cases c.metadata with
  | none => rw [bind_none, or_none]
  | some m =>
    simp only [get?_setDefaults, bind_some]
    rw [Option.or_assoc]

/-- the metadata of a payload lays the payload under the connection, unless `extra` is a known key -/
theorem laid_extract (payload : Dict String Json) (k : String) :
    laid (extractConnectionMetadata knownKeys payload) k =
      if k ∈ knownKeys ∧ k = "extra" then none else (payload.get? k).filter notNull := by
  unfold extractConnectionMetadata
  by_cases hnil : payload.entries = []
  · rw [if_pos hnil, (entries_eq_nil_iff payload).1 hnil k, filter_none, ite_self]
    rfl
  · rw [if_neg hnil]
    change ((Dict.get? _ k).filter notNull).or ((Dict.get? _ k).filter notNull) = _
    rw [get?_restrict, get?_restrict]
    by_cases hknown : k ∈ knownKeys
    · by_cases hextra : k = "extra"
      · have hmem : "extra" ∈ knownKeys := hextra ▸ hknown
        simp [hextra, hmem]
      · simp [hknown, hextra]
    · simp [hknown]

/-- **The configuration.** Two connectors with one connection and the same secrets run under the same configuration if
and only if their metadata lays the same under the keys that are free. -/
theorem sameConfig_iff (c c' : Connector S P) (hconnection : c'.connection = c.connection)
    (hsecrets : c'.secrets = c.secrets) :
    Same (buildConnectorRuntimePayload resolve c) (buildConnectorRuntimePayload resolve c') ↔
      ∀ k, c.connection.get? k = none → c.secrets.get? k = none → laid c.metadata k = laid c'.metadata k := by
  have hget := @get?_payload _ _ resolve c
  have hget' := @get?_payload _ _ resolve c'
  rw [hconnection, hsecrets] at hget'
  constructor
  · intro hsame k hfree hsecret
    have hk := hsame k
    rwa [hget, hget', hsecret, hfree, map_none, none_or, none_or, none_or] at hk
  · intro hlaid k
    rw [hget, hget']
    cases hsecret : c.secrets.get? k with
    | some s => rfl
    | none =>
      cases hfree : c.connection.get? k with
      | some v => rfl
      | none => rw [hlaid k hfree hsecret]

end Config

/-! ## What is stored -/

section Stored

variable [PyText] {connectorType : String} {knownKeys : List String}

/-- stored metadata: known keys apart from the others; each known key of the connection, and each that was given; and
where `extra` is not a known key, the `extra` that was given is nested in the stored one -/
structure MetadataInv (knownKeys : List String) (connection given : Dict String Json) (m : ConnectionMetadata) :
    Prop where
  fields : ∀ k v, m.fields.get? k = some v → k ∈ knownKeys ∧ k ≠ "extra"
  extra : ∀ k v, m.extra.get? k = some v → k ∉ knownKeys
  held : ∀ k, k ∈ knownKeys → k ≠ "extra" → m.fields.get? k = none → connection.get? k = none
  kept : ∀ k v, k ∈ knownKeys → k ≠ "extra" → given.get? k = some v → m.fields.get? k = some v
  nested : "extra" ∉ knownKeys → ∀ v, given.get? "extra" = some v → sizeOf v < sizeOf m.extra.entries

omit [PyText] in
theorem MetadataInv.field_none {connection given : Dict String Json} {m : ConnectionMetadata}
    (h : MetadataInv knownKeys connection given m) {k : String} (hk : ¬(k ∈ knownKeys ∧ k ≠ "extra")) :
    m.fields.get? k = none :=
  eq_none_iff_forall_ne_some.2 fun v hv => hk (h.fields k v hv)

/-- a stored connector and what was given last -/
structure StoredInv (connectorType : String) (knownKeys : List String) (c : Connector S P) (g : CreateRequest S P) :
    Prop where
  connection : c.connection = normalizeConnectionPayload connectorType g.connection
  secrets : c.secrets = g.secrets
  policy : c.policy = g.policy
  bare : c.metadata = none → c.connection.entries = [] ∧ ∀ k, g.metadata.get? k = none
  stored : ∀ m, c.metadata = some m → MetadataInv knownKeys c.connection g.metadata m

omit [PyText] in
theorem sizeOf_get? (d : Dict String Json) (k : String) (v : Json) (h : d.get? k = some v) :
    sizeOf v < sizeOf d.entries := by
  have hmem := List.sizeOf_lt_of_mem ((get?_eq_some_iff d k v).1 h)
  rw [Prod.mk.sizeOf_spec] at hmem
  omega

omit [PyText] in
theorem extract_eq_some {payload : Dict String Json} {m : ConnectionMetadata}
    (h : extractConnectionMetadata knownKeys payload = some m) :
    (∀ k, m.fields.get? k = if k ∈ knownKeys ∧ k ≠ "extra" then payload.get? k else none) ∧
      ∀ k, m.extra.get? k = if k ∉ knownKeys then payload.get? k else none := by
  unfold extractConnectionMetadata at h
  split_ifs at h
  cases h
  refine ⟨fun k => ?_, fun k => ?_⟩
  · simp only [get?_restrict, decide_eq_true_eq]
  · simp only [get?_restrict, decide_eq_true_eq]

omit [PyText] in
theorem extract_eq_none {payload : Dict String Json} (h : extractConnectionMetadata knownKeys payload = none)
    (k : String) : payload.get? k = none := by
  unfold extractConnectionMetadata at h
  split_ifs at h with hnil
  exact (entries_eq_nil_iff payload).1 hnil k

omit [PyText] in
/-- metadata extracted from a connection and a payload that holds what was given -/
theorem extract_inv {connection payload given : Dict String Json} {m : ConnectionMetadata}
    (h : extractConnectionMetadata knownKeys (connection.update payload) = some m)
    (hgiven : ∀ k v, k ∈ knownKeys → k ≠ "extra" → given.get? k = some v → payload.get? k = some v)
    (hnested : "extra" ∉ knownKeys → ∀ v, given.get? "extra" = some v →
      ∃ w, payload.get? "extra" = some w ∧ sizeOf v ≤ sizeOf w) :
    MetadataInv knownKeys connection given m := by
  obtain ⟨hfields, hextra⟩ := extract_eq_some h
  refine ⟨fun k v hk => ?_, fun k v hk => ?_, fun k hknown hne hk => ?_, fun k v hknown hne hk => ?_,
    fun hunknown v hv => ?_⟩
  · rw [hfields] at hk
    by_contra hno
    rw [if_neg hno] at hk
    cases hk
  · rw [hextra] at hk
    by_contra hno
    rw [if_neg (not_not.2 hno)] at hk
    cases hk
  · rw [hfields, if_pos ⟨hknown, hne⟩, get?_update, or_eq_none_iff] at hk
    exact hk.2
  · rw [hfields, if_pos ⟨hknown, hne⟩, get?_update, hgiven k v hknown hne hk]
    rfl
  · obtain ⟨w, hw, hsize⟩ := hnested hunknown v hv
    have hget : m.extra.get? "extra" = some w := by
      rw [hextra, if_pos hunknown, get?_update, hw]
      rfl
    exact lt_of_le_of_lt hsize (sizeOf_get? _ _ _ hget)

omit [PyText] in
theorem get?_dump (m : ConnectionMetadata) (k : String) :
    m.dump.get? k = if k = "extra" then some (.obj m.extra.entries) else m.fields.get? k :=
  get?_set _ _ _ _

theorem create_inv (g : CreateRequest S P) :
    StoredInv connectorType knownKeys (createConnector connectorType knownKeys g) g where
  connection := rfl
  secrets := rfl
  policy := rfl
  bare := fun h => by
    have hnone := extract_eq_none h
    simp only [get?_update, or_eq_none_iff] at hnone
    exact ⟨(entries_eq_nil_iff _).2 fun k => (hnone k).2, fun k => (hnone k).1⟩
  stored := fun m h => extract_inv h (fun _ _ _ _ hk => hk) fun _ v hv => ⟨v, hv, le_refl _⟩

/-- **What is stored** after an update. -/
theorem update_inv {c : Connector S P} {g : CreateRequest S P} (h : StoredInv connectorType knownKeys c g)
    (r : UpdateRequest S P) :
    StoredInv connectorType knownKeys (updatedConnector connectorType knownKeys c r) (g.after r) := by
  have hconnection : (updatedConnector connectorType knownKeys c r).connection =
      normalizeConnectionPayload connectorType (g.after r).connection := by
    unfold updatedConnector CreateRequest.after
    cases r.connection with
    | none => exact h.connection
    | some connection => rfl
  have hsecrets : (updatedConnector connectorType knownKeys c r).secrets = (g.after r).secrets :=
    congrArg (fun s => r.secrets.getD s) h.secrets
  have hpolicy : (updatedConnector connectorType knownKeys c r).policy = (g.after r).policy :=
    congrArg (fun p => r.policy.getD p) h.policy
  refine ⟨hconnection, hsecrets, hpolicy, fun hnone => ?_, fun m hm => ?_⟩
  · have hall := extract_eq_none hnone
    simp only [get?_update, or_eq_none_iff] at hall
    refine ⟨(entries_eq_nil_iff _).2 fun k => (hall k).2, fun k => ?_⟩
    unfold CreateRequest.after
    cases hgiven : r.metadata with
    | some given =>
      have hk := (hall k).1
      rwa [hgiven] at hk
    | none =>
      cases hm : c.metadata with
      | none => exact (h.bare hm).2 k
      | some m =>
        have hk := (hall "extra").1
        rw [hgiven, getD_none, Connector.currentMetadata, hm] at hk
        simp only [get?_dump, if_pos] at hk
        cases hk
  · refine extract_inv hm (fun k v hknown hne hk => ?_) fun hunknown v hv => ?_
    · unfold CreateRequest.after at hk
      cases hgiven : r.metadata with
      | some given =>
        rw [hgiven] at hk
        exact hk
      | none =>
        rw [hgiven] at hk
        unfold Connector.currentMetadata
        cases hm : c.metadata with
        | none => exact absurd ((h.bare hm).2 k) (by rw [show g.metadata.get? k = some v from hk]; simp)
        | some m =>
          simp only [getD_none]
          rw [get?_dump, if_neg hne]
          exact (h.stored m hm).kept k v hknown hne hk
    · unfold CreateRequest.after at hv
      cases hgiven : r.metadata with
      | some given =>
        rw [hgiven] at hv
        exact ⟨v, hv, le_refl _⟩
      | none =>
        rw [hgiven] at hv
        unfold Connector.currentMetadata
        cases hm : c.metadata with
        | none => exact absurd ((h.bare hm).2 "extra") (by rw [show g.metadata.get? "extra" = some v from hv]; simp)
        | some m =>
          refine ⟨.obj m.extra.entries, ?_, ?_⟩
          · simp only [getD_none]
            rw [get?_dump, if_pos rfl]
          · have hsize := (h.stored m hm).nested hunknown v hv
            rw [Json.obj.sizeOf_spec]
            omega

end Stored

/-! ## Updates -/

section Updates

variable [PyText] {connectorType : String} {knownKeys : List String} {resolve : S → Json}
  {accepts : Dict String Json → Bool}

omit [PyText] in
theorem filter_eq_none_iff (o : Option Json) : o.filter notNull = none ↔ ∀ v, o = some v → v.isNull = true := by
  cases o with
  | none => simp
  | some v => cases hv : v.isNull <;> simp [notNull, hv]

variable {c : Connector S P} {g : CreateRequest S P}

/-- an updated connector runs as one made from scratch if and only if what its metadata was extracted from lays the same
under the keys that are free as what was given last -/
theorem runsAsGiven_iff (h : StoredInv connectorType knownKeys c g) (r : UpdateRequest S P) :
    RunsAsGiven connectorType knownKeys resolve (updatedConnector connectorType knownKeys c r) (g.after r) ↔
      ∀ k, (updatedConnector connectorType knownKeys c r).connection.get? k = none →
        (updatedConnector connectorType knownKeys c r).secrets.get? k = none → ¬ (k ∈ knownKeys ∧ k = "extra") →
        ((r.metadata.getD c.currentMetadata).get? k).filter notNull = ((g.after r).metadata.get? k).filter notNull := by
  have hinv := update_inv h r
  set u := updatedConnector connectorType knownKeys c r with hu
  set made := createConnector connectorType knownKeys (g.after r) with hmade
  have hconfig := @sameConfig_iff _ _ resolve u made hinv.connection.symm hinv.secrets.symm
  have hlaid : ∀ k, u.connection.get? k = none →
      (laid u.metadata k = laid made.metadata k ↔
      (¬ (k ∈ knownKeys ∧ k = "extra") → ((r.metadata.getD c.currentMetadata).get? k).filter notNull =
        ((g.after r).metadata.get? k).filter notNull)) := by
    intro k hfree
    have hfree' : (normalizeConnectionPayload connectorType (g.after r).connection).get? k = none := by
      rw [← hinv.connection]
      exact hfree
    have hupdated : laid u.metadata k = if k ∈ knownKeys ∧ k = "extra"
        then none else ((r.metadata.getD c.currentMetadata).get? k).filter notNull := by
      refine (laid_extract (u.connection.update
        (r.metadata.getD c.currentMetadata)) k).trans ?_
      rw [get?_update, hfree, or_none]
    have hcreated : laid made.metadata k =
        if k ∈ knownKeys ∧ k = "extra" then none else ((g.after r).metadata.get? k).filter notNull := by
      refine (laid_extract ((normalizeConnectionPayload connectorType (g.after r).connection).update
        (g.after r).metadata) k).trans ?_
      rw [get?_update, hfree', or_none]
    rw [hupdated, hcreated]
    by_cases hextra : k ∈ knownKeys ∧ k = "extra"
    · rw [if_pos hextra, if_pos hextra]
      exact iff_of_true rfl fun hno => absurd hextra hno
    · rw [if_neg hextra, if_neg hextra]
      exact ⟨fun heq _ => heq, fun himp => himp hextra⟩
  constructor
  · intro hruns k hfree hsecret
    exact (hlaid k hfree).1 (hconfig.1 hruns.config k hfree hsecret)
  · intro hall
    exact ⟨hconfig.2 fun k hfree hsecret => (hlaid k hfree).2 (hall k hfree hsecret), hinv.policy⟩

/-- **An update without metadata** over stored metadata: exactly when the connector runs as one made from scratch. -/
theorem runsAsGiven_stored_iff (h : StoredInv connectorType knownKeys c g)
    (r : UpdateRequest S P) (hnone : r.metadata = none) (m : ConnectionMetadata) (hm : c.metadata = some m) :
    RunsAsGiven connectorType knownKeys resolve (updatedConnector connectorType knownKeys c r) (g.after r) ↔
      ∀ k, (updatedConnector connectorType knownKeys c r).connection.get? k = none →
        (updatedConnector connectorType knownKeys c r).secrets.get? k = none →
        (k ∉ knownKeys → k ≠ "extra" ∧ NullAt g.metadata k) ∧
          (k ∈ knownKeys → k ≠ "extra" → g.metadata.get? k = none → NullAt m.fields k) := by
  have hmeta := h.stored m hm
  have hgiven : (g.after r).metadata = g.metadata := by
    rw [CreateRequest.after, hnone]
    rfl
  have hcurrent : ∀ k, (r.metadata.getD c.currentMetadata).get? k =
      if k = "extra" then some (.obj m.extra.entries) else m.fields.get? k := by
    intro k
    rw [hnone, getD_none, Connector.currentMetadata, hm]
    exact get?_dump m k
  rw [runsAsGiven_iff h r, hgiven]
  refine forall_congr' fun k => imp_congr_right fun _ => imp_congr_right fun _ => ?_
  rw [hcurrent k]
  by_cases hknown : k ∈ knownKeys
  · by_cases hextra : k = "extra"
    · exact iff_of_true (fun hno => absurd ⟨hknown, hextra⟩ hno)
        ⟨fun hno => absurd hknown hno, fun _ hno => absurd hextra hno⟩
    · rw [if_neg hextra]
      constructor
      · intro hsame
        refine ⟨fun hno => absurd hknown hno, fun _ _ hmissing => (filter_eq_none_iff _).1 ?_⟩
        rw [hsame fun hboth => hextra hboth.2, hmissing]
        rfl
      · rintro ⟨_, hfields⟩ _
        cases hk : g.metadata.get? k with
        | some v => rw [hmeta.kept k v hknown hextra hk]
        | none => rw [(filter_eq_none_iff _).2 (hfields hknown hextra hk), filter_none]
  · have hfields : m.fields.get? k = none := hmeta.field_none fun hboth => hknown hboth.1
    by_cases hextra : k = "extra"
    · rw [if_pos hextra]
      refine iff_of_false (fun hsame => ?_) fun hno => (hno.1 hknown).1 hextra
      have hsame' := hsame fun hboth => hknown hboth.1
      have hunknown : "extra" ∉ knownKeys := hextra ▸ hknown
      rw [filter_some_pos (show notNull (.obj m.extra.entries) = true from rfl), hextra] at hsame'
      cases hv : g.metadata.get? "extra" with
      | none =>
        rw [hv] at hsame'
        cases hsame'
      | some v =>
        -- what was given would be nested in itself
        have hsize := hmeta.nested hunknown v hv
        rw [hv] at hsame'
        obtain rfl := Option.some.inj (filter_eq_some_iff.1 hsame'.symm).1
        rw [Json.obj.sizeOf_spec] at hsize
        omega
    · rw [if_neg hextra, hfields, filter_none]
      constructor
      · intro hsame
        exact ⟨fun _ => ⟨hextra, (filter_eq_none_iff _).1 (hsame fun hboth => hknown hboth.1).symm⟩,
          fun hyes => absurd hyes hknown⟩
      · rintro ⟨hnull, _⟩ _
        exact ((filter_eq_none_iff _).2 (hnull hknown).2).symm

/-- the metadata of a connector that is merged again -/
theorem sameMetadata_iff (h : StoredInv connectorType knownKeys c g) :
    SameMetadata c.metadata (extractConnectionMetadata knownKeys (c.connection.update c.currentMetadata)) ↔
      ∀ m, c.metadata = some m → "extra" ∈ knownKeys ∧ ∀ k, k ∉ knownKeys → m.extra.get? k = c.connection.get? k := by
  have hget : ∀ k, (c.connection.update c.currentMetadata).get? k =
      (c.currentMetadata.get? k).or (c.connection.get? k) := get?_update _ _
  cases hm : c.metadata with
  | none =>
    have hnil : (c.connection.update c.currentMetadata).entries = [] := by
      refine (entries_eq_nil_iff _).2 fun k => ?_
      rw [hget, Connector.currentMetadata, hm, (entries_eq_nil_iff _).1 (h.bare hm).1 k]
      rfl
    rw [extractConnectionMetadata, if_pos hnil]
    exact iff_of_true trivial fun m hno => (by cases hno)
  | some m =>
    have hmeta := h.stored m hm
    have hcurrent : ∀ k, c.currentMetadata.get? k =
        if k = "extra" then some (.obj m.extra.entries) else m.fields.get? k := by
      intro k
      rw [Connector.currentMetadata, hm]
      exact get?_dump m k
    cases hextract : extractConnectionMetadata knownKeys (c.connection.update c.currentMetadata) with
    | none =>
      have hall := extract_eq_none hextract "extra"
      rw [hget, hcurrent, if_pos rfl] at hall
      cases hall
    | some m' =>
      obtain ⟨hfields, hextra⟩ := extract_eq_some hextract
      have hsame : Same m.fields m'.fields := by
        intro k
        rw [hfields]
        by_cases hk : k ∈ knownKeys ∧ k ≠ "extra"
        · rw [if_pos hk, hget, hcurrent, if_neg hk.2]
          cases hheld : m.fields.get? k with
          | some v => rfl
          | none => rw [hmeta.held k hk.1 hk.2 hheld, none_or]
        · rw [if_neg hk, hmeta.field_none hk]
      have hunknown : ∀ k, k ∉ knownKeys → k ≠ "extra" → m'.extra.get? k = c.connection.get? k := by
        intro k hk hne
        rw [hextra, if_pos hk, hget, hcurrent, if_neg hne, hmeta.field_none fun hboth => hk hboth.1, none_or]
      constructor
      · rintro ⟨_, hsame'⟩ m₀ hm₀
        cases hm₀
        have hknown : "extra" ∈ knownKeys := by
          by_contra hno
          have hself := hsame' "extra"
          rw [hextra, if_pos hno, hget, hcurrent, if_pos rfl, some_or] at hself
          have hsize := sizeOf_get? _ _ _ hself
          rw [Json.obj.sizeOf_spec] at hsize
          omega
        refine ⟨hknown, fun k hk => ?_⟩
        rw [hsame' k, hunknown k hk fun heq => hk (heq ▸ hknown)]
      · intro hall
        obtain ⟨hknown, hstored⟩ := hall m rfl
        refine ⟨hsame, fun k => ?_⟩
        by_cases hk : k ∈ knownKeys
        · rw [hextra, if_neg (not_not.2 hk), eq_none_iff_forall_ne_some]
          intro v hv
          exact hmeta.extra k v hv hk
        · rw [hstored k hk, hunknown k hk fun heq => hk (heq ▸ hknown)]

/-- **A request without fields**: exactly when it leaves a connector unchanged. -/
theorem unchanged_iff (h : StoredInv connectorType knownKeys c g) (r : UpdateRequest S P) (hidle : r.Idle) :
    Unchanged c (updatedConnector connectorType knownKeys c r) ↔
      strippedDescription c.description = c.description ∧ ∀ m, c.metadata = some m →
        "extra" ∈ knownKeys ∧ ∀ k, k ∉ knownKeys → m.extra.get? k = c.connection.get? k := by
  obtain ⟨hdescription, hconnection, hmetadata, hsecrets, hpolicy⟩ := hidle
  rw [← sameMetadata_iff h]
  unfold updatedConnector
  rw [hdescription, hconnection, hmetadata, hsecrets, hpolicy]
  exact ⟨fun hsame => ⟨hsame.description, hsame.metadata⟩, fun hsame => ⟨hsame.1, rfl, hsame.2, rfl, rfl⟩⟩

/-- one accepted update -/
theorem careful_iff (h : StoredInv connectorType knownKeys c g) (r : UpdateRequest S P) :
    (RunsAsGiven connectorType knownKeys resolve (updatedConnector connectorType knownKeys c r) (g.after r) ∧
      (r.Idle → Unchanged c (updatedConnector connectorType knownKeys c r))) ↔
      Careful connectorType knownKeys c g r := by
  constructor
  · rintro ⟨hruns, hidle⟩
    refine ⟨fun hnone m hm => (runsAsGiven_stored_iff h r hnone m hm).1 hruns, fun hno => ?_⟩
    exact (unchanged_iff h r hno).1 (hidle hno)
  · intro hcareful
    refine ⟨?_, fun hidle => (unchanged_iff h r hidle).2 (hcareful.idle hidle)⟩
    cases hsome : r.metadata with
    | some given =>
      refine (runsAsGiven_iff h r).2 fun k _ _ _ => ?_
      rw [CreateRequest.after, hsome]
      rfl
    | none =>
      cases hm : c.metadata with
      | none =>
        refine (runsAsGiven_iff h r).2 fun k _ _ _ => ?_
        rw [CreateRequest.after, hsome, getD_none, getD_none, (h.bare hm).2 k, Connector.currentMetadata, hm]
        rfl
      | some m => exact (runsAsGiven_stored_iff h r hsome m hm).2 (hcareful.metadata hsome m hm)

theorem holdsAlong_stored_iff (h : StoredInv connectorType knownKeys c g)
    (hruns : RunsAsGiven connectorType knownKeys resolve c g) (rs : List (UpdateRequest S P)) :
    HoldsAlong connectorType knownKeys resolve accepts c g rs ↔
      CarefulAlong connectorType knownKeys resolve accepts c g rs := by
  induction rs generalizing c g with
  | nil => exact iff_of_true hruns trivial
  | cons r rs ih =>
    rw [HoldsAlong, CarefulAlong, and_iff_right hruns]
    unfold updateConnector
    dsimp only
    split_ifs with haccepts
    · rw [← @careful_iff _ _ _ _ _ resolve _ _ h r]
      constructor
      · rintro ⟨hidle, hrest⟩
        have hnext : RunsAsGiven connectorType knownKeys resolve (updatedConnector connectorType knownKeys c r)
            (g.after r) := by
          cases rs with
          | nil => exact hrest
          | cons r' rs => exact hrest.1
        exact ⟨⟨hnext, hidle⟩, (ih (update_inv h r) hnext).1 hrest⟩
      · rintro ⟨⟨hnext, hidle⟩, hrest⟩
        exact ⟨hidle, (ih (update_inv h r) hnext).2 hrest⟩
    · exact ih h hruns

/-- **Updates.** Along every sequence of updates of a connector that is created, it runs as one made from scratch from
what was given last, and requests without fields change nothing, if and only if every accepted update is careful. -/
theorem holdsAlong_iff (connectorType : String) (knownKeys : List String) (resolve : S → Json)
    (accepts : Dict String Json → Bool) (g : CreateRequest S P) (rs : List (UpdateRequest S P)) :
    HoldsAlong connectorType knownKeys resolve accepts (createConnector connectorType knownKeys g) g rs ↔
      CarefulAlong connectorType knownKeys resolve accepts (createConnector connectorType knownKeys g) g rs :=
  holdsAlong_stored_iff (create_inv g) ⟨fun _ => rfl, rfl⟩ rs

end Updates

/-! ## A warehouse -/

section Warehouse

open scoped Ascii

def warehouse : CreateRequest Unit Unit where
  description := none
  connection := Dict.empty.set "host" (.str "db1")
  metadata := Dict.empty.set "warehouse" (.str "SALES")
  secrets := Dict.empty
  policy := none

/-- the keys of the configuration that a connector runs under -/
def configKeys (c : Connector Unit Unit) : List String := (buildConnectorRuntimePayload (fun _ => .null) c).keys

/-- an update without fields takes the warehouse from the configuration -/
theorem untouched_loses :
    configKeys (createConnector "SNOWFLAKE" [] warehouse) = ["host", "warehouse"] ∧
    configKeys (updatedConnector "SNOWFLAKE" [] (createConnector "SNOWFLAKE" [] warehouse) {}) =
      ["host", "extra"] ∧
    ¬ HoldsAlong "SNOWFLAKE" [] (fun _ => .null) (fun _ => true) (createConnector "SNOWFLAKE" [] warehouse) warehouse
      [{}] := by
  refine ⟨by decide +kernel, by decide +kernel, fun h => ?_⟩
  have hcareful := ((holdsAlong_stored_iff (create_inv warehouse) ⟨fun _ => rfl, rfl⟩ _).1 h).1
  exact List.not_mem_nil ((hcareful.idle ⟨rfl, rfl, rfl, rfl, rfl⟩).2 _ rfl).1

end Warehouse

end Langbridge.Runtime.ConnectorUpdates
