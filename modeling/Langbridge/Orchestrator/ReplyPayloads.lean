/-
The JSON objects in replies of a language model (`agents/planner/planner.py`, `analyst/agent.py`,
`supervisor/orchestrator.py`, `reasoning/agent.py`). All four parsers look for the first brace of a reply and count
braces from there up to where they are balanced, those in strings with the others.
-/
import Langbridge.Core.JsonText

namespace Langbridge.Orchestrator.ReplyPayloads

open Core Core.JsonText List Option

/-! ## Parsers -/

/-- from an open brace to the one that balances it; `depth` braces are open -/
def blobFrom : ℤ → List Char → Option (List Char)
  | _, [] => none
  | depth, c :: cs =>
    if c = '\x7d' ∧ depth + brace c = 0 then some [c] else (blobFrom (depth + brace c) cs).map (c :: ·)

def extractJsonBlob (text : List Char) : Option (List Char) :=
  match text.dropWhile (· ≠ '\x7b') with
  | [] => none
  | cs => blobFrom 0 cs

/-- the object in a reply -/
def parsePayload (readFloat : String → String) (response : String) : Option Json :=
  (extractJsonBlob response.toList).bind fun blob =>
    match loads readFloat blob with
    | some (.obj entries) => some (.obj entries)
    | _ => none

/-- `PlanningAgent._parse_llm_payload` -/
def planningPayload (readFloat : String → String) : String → Option Json := parsePayload readFloat

/-- `AnalystAgent._parse_json_payload` -/
def analystPayload (readFloat : String → String) : String → Option Json := parsePayload readFloat

/-- `SupervisorOrchestrator._parse_llm_payload` -/
def supervisorPayload (readFloat : String → String) : String → Option Json := parsePayload readFloat

/-- `ReasoningAgent._parse_llm_payload` -/
def reasoningPayload (readFloat : String → String) : String → Option Json := parsePayload readFloat

/-! ## Counting -/

/-- the braces of a text -/
def total (cs : List Char) : ℤ := (cs.map brace).sum

theorem total_cons (c : Char) (cs : List Char) : total (c :: cs) = brace c + total cs := sum_cons

theorem total_append (a b : List Char) : total (a ++ b) = total a + total b := by
  rw [total, map_append, sum_append]
  rfl

theorem brace_ge (c : Char) : -1 ≤ brace c := by
  unfold brace
  split_ifs <;> decide

theorem eq_close_of_brace {c : Char} (h : brace c = -1) : c = '\x7d' := by
  unfold brace at h
  split_ifs at h with hopen hclose
  exact hclose

/-- **Counting stops** at the first place where the braces are balanced. -/
theorem blobFrom_eq_some_iff {depth : ℤ} (hdepth : 0 < depth) {cs b : List Char} : blobFrom depth cs = some b ↔
    b <+: cs ∧ depth + total b = 0 ∧ ∀ y, y <+: b → y ≠ b → 0 < depth + total y := by
  have hnil : depth + total [] = depth := add_zero depth
  induction cs generalizing depth b with
  | nil =>
    refine iff_of_false (fun h => nomatch h) ?_
    rintro ⟨hb, hzero, -⟩
    rw [prefix_nil.1 hb, hnil] at hzero
    exact hdepth.ne' hzero
  | cons c cs ih =>
    rw [blobFrom]
    split_ifs with hstop
    · obtain ⟨rfl, hzero⟩ := hstop
      have hone : depth + total [ '\x7d'] = 0 := by rwa [total_cons, show total [] = 0 from rfl, add_zero]
      rw [some_inj]
      constructor
      · rintro rfl
        refine ⟨⟨cs, rfl⟩, hone, fun y hy hne => ?_⟩
        rcases prefix_cons_iff.1 hy with rfl | ⟨t, rfl, ht⟩
        · rwa [hnil]
        · exact absurd (by rw [prefix_nil.1 ht]) hne
      · rintro ⟨hb, hb0, hproper⟩
        rcases prefix_cons_iff.1 hb with rfl | ⟨t, rfl, ht⟩
        · rw [hnil] at hb0
          exact absurd hb0 hdepth.ne'
        · by_contra hne
          have hpos := hproper [ '\x7d'] ⟨t, rfl⟩ hne
          rw [hone] at hpos
          exact lt_irrefl _ hpos
    · have hpos : 0 < depth + brace c := by
        have hge := brace_ge c
        rcases (show 0 < depth + brace c ∨ depth + brace c = 0 by omega) with h | h
        · exact h
        · exact absurd ⟨eq_close_of_brace (by omega), h⟩ hstop
      rw [map_eq_some_iff]
      constructor
      · rintro ⟨t, ht, rfl⟩
        obtain ⟨hinit, hzero, hproper⟩ := (ih hpos (add_zero _)).1 ht
        refine ⟨(cons_prefix_cons).2 ⟨rfl, hinit⟩, ?_, fun y hy hne => ?_⟩
        · rw [total_cons, ← add_assoc]
          exact hzero
        · rcases prefix_cons_iff.1 hy with rfl | ⟨z, rfl, hz⟩
          · rwa [hnil]
          · rw [total_cons, ← add_assoc]
            exact hproper z hz fun heq => hne (by rw [heq])
      · rintro ⟨hb, hzero, hproper⟩
        rcases prefix_cons_iff.1 hb with rfl | ⟨t, rfl, ht⟩
        · rw [hnil] at hzero
          exact absurd hzero hdepth.ne'
        · refine ⟨t, (ih hpos (add_zero _)).2 ⟨ht, ?_, fun z hz hne => ?_⟩, rfl⟩
          · rw [total_cons, ← add_assoc] at hzero
            exact hzero
          · have h := hproper (c :: z) ((cons_prefix_cons).2 ⟨rfl, hz⟩) fun heq =>
              hne (cons_inj_right c |>.1 heq)
            rw [total_cons, ← add_assoc] at h
            exact h

/-- **Braces outside strings and in them** -/
theorem total_eq (cs : List Char) : total cs = (start.run cs).depth + (start.run cs).surplus := by
  rw [run_total]
  simp [start, total]

/-! ## Objects in replies -/

/-- **The braces in strings stay balanced**: up to no place before the end of a text, strings close more braces than
objects and strings have open there, and at its end they have closed as many as they opened. -/
structure Balanced (t : List Char) : Prop where
  inner : ∀ y, y <+: t → y ≠ [] → y ≠ t → -(start.run y).depth < (start.run y).surplus
  outer : (start.run t).surplus = 0

/-- a text without braces -/
def NoBrace (cs : List Char) : Prop := ∀ c ∈ cs, c ≠ '\x7b' ∧ c ≠ '\x7d'

theorem noBrace_of_all {cs : List Char} (h : (cs.all fun c => c != '\x7b' && c != '\x7d') = true) : NoBrace cs := by
  simpa [NoBrace] using h

theorem total_noBrace {cs : List Char} (h : NoBrace cs) : total cs = 0 := by
  have hzero : ∀ c ∈ cs.map brace, c = 0 := by
    intro d hd
    obtain ⟨c, hc, rfl⟩ := mem_map.1 hd
    simp [brace, h c hc]
  exact sum_eq_zero hzero

/-- the blob of a reply begins with its first brace -/
theorem extractJsonBlob_eq {before : List Char} (hbefore : NoBrace before) (cs : List Char) :
    extractJsonBlob (before ++ '\x7b' :: cs) = (blobFrom 1 cs).map ( '\x7b' :: ·) := by
  have hdrop : (before ++ '\x7b' :: cs).dropWhile (· ≠ '\x7b') = '\x7b' :: cs := by
    rw [dropWhile_append_of_pos fun c hc => by simpa using (hbefore c hc).1]
    rfl
  rw [extractJsonBlob, hdrop]
  rfl

/-- **A serialisation** of an object: a text that is read as the object, from its first brace to its last -/
structure Serialisation (readFloat : String → String) (entries : List (String × Json)) (t : List Char) : Prop where
  first : t.head? = some '\x7b'
  last : t.getLast? = some '\x7d'
  reads : loads readFloat t = some (.obj entries)

/-- all parsers find the object in a reply -/
structure Extracts (readFloat : String → String) (reply : String) (entries : List (String × Json)) : Prop where
  planning : planningPayload readFloat reply = some (.obj entries)
  analyst : analystPayload readFloat reply = some (.obj entries)
  supervisor : supervisorPayload readFloat reply = some (.obj entries)
  reasoning : reasoningPayload readFloat reply = some (.obj entries)

/-- the text of an object between its braces -/
theorem Serialisation.exists_inner {readFloat : String → String} {entries : List (String × Json)} {t : List Char}
    (h : Serialisation readFloat entries t) : ∃ cs, t = '\x7b' :: cs ++ [ '\x7d'] := by
  obtain ⟨rest, rfl⟩ : ∃ rest, t = '\x7b' :: rest := by
    cases t with
    | nil => cases h.first
    | cons c rest => exact ⟨rest, by rw [Option.some.inj h.first]⟩
  rcases eq_nil_or_concat' rest with rfl | ⟨cs, c, rfl⟩
  · exact absurd h.last (by decide)
  · have hlast : c = '\x7d' := by simpa [getLast?_cons, getLast?_append] using h.last
    exact ⟨cs, by rw [hlast]; rfl⟩

/-- counting stops at the end of a text exactly if the braces in its strings stay balanced -/
theorem balanced_iff {t : List Char} (ht : Closed t) :
    Balanced t ↔ total t = 0 ∧ ∀ y, y <+: t → y ≠ [] → y ≠ t → 0 < total y := by
  have htotal : total t = (start.run t).surplus := by rw [total_eq, ht.outer, zero_add]
  constructor
  · rintro ⟨hinner, houter⟩
    refine ⟨htotal.trans houter, fun y hy hne hproper => ?_⟩
    have h := hinner y hy hne hproper
    rw [total_eq]
    omega
  · rintro ⟨hzero, hinner⟩
    refine ⟨fun y hy hne hproper => ?_, htotal.symm.trans hzero⟩
    have h := hinner y hy hne hproper
    rw [total_eq] at h
    omega

/-- the same, counted from behind the first brace -/
theorem total_inner_iff (body : List Char) :
    (total ( '\x7b' :: body) = 0 ∧ ∀ y, y <+: '\x7b' :: body → y ≠ [] → y ≠ '\x7b' :: body → 0 < total y) ↔
      1 + total body = 0 ∧ ∀ z, z <+: body → z ≠ body → 0 < 1 + total z := by
  have hopen : ∀ z, total ( '\x7b' :: z) = 1 + total z := fun z => total_cons _ z
  refine and_congr_right fun _ => ⟨fun h z hz hne => ?_, fun h y hy hne hproper => ?_⟩
  · exact h _ ((cons_prefix_cons).2 ⟨rfl, hz⟩) (cons_ne_nil _ _) fun heq =>
      hne (cons_inj_right _ |>.1 heq)
  · rcases prefix_cons_iff.1 hy with rfl | ⟨z, rfl, hz⟩
    · exact absurd rfl hne
    · exact h z hz fun heq => hproper (by rw [heq])

/-- what counting stops at ends with a brace -/
theorem exists_concat_of_total {b : List Char} (hzero : 1 + total b = 0)
    (hproper : ∀ y, y <+: b → y ≠ b → 0 < 1 + total y) : ∃ inner, b = inner ++ [ '\x7d'] := by
  rcases eq_nil_or_concat' b with rfl | ⟨inner, c, rfl⟩
  · exact absurd hzero (by decide)
  · have hpos := hproper inner (prefix_append _ _) (by simp)
    have hge := brace_ge c
    rw [total_append, total_cons, show total [] = 0 from rfl, add_zero] at hzero
    exact ⟨inner, by rw [eq_close_of_brace (show brace c = -1 by omega)]⟩

/-- **Objects in replies** are found exactly if the braces in their strings stay balanced. -/
theorem extracts_iff {readFloat : String → String} {before t after : List Char} {entries : List (String × Json)}
    (hbefore : NoBrace before) (ht : Serialisation readFloat entries t) (hafter : NoBrace after) :
    Extracts readFloat (String.ofList (before ++ t ++ after)) entries ↔ Balanced t := by
  have hone : Extracts readFloat (String.ofList (before ++ t ++ after)) entries ↔
      parsePayload readFloat (String.ofList (before ++ t ++ after)) = some (.obj entries) :=
    ⟨Extracts.planning, fun h => ⟨h, h, h, h⟩⟩
  obtain ⟨cs, rfl⟩ := ht.exists_inner
  have hclosed := closed_of_loads ht.reads
  obtain ⟨body, hbody⟩ : ∃ body, cs ++ [ '\x7d'] = body := ⟨_, rfl⟩
  have hblob : extractJsonBlob (before ++ '\x7b' :: body ++ after) =
      (blobFrom 1 (body ++ after)).map ( '\x7b' :: ·) := by
    rw [← extractJsonBlob_eq hbefore, append_assoc]
    rfl
  rw [hone, parsePayload, String.toList_ofList, cons_append, hbody, hblob]
  rw [cons_append, hbody] at hclosed
  have hreads := ht.reads
  rw [cons_append, hbody] at hreads
  rw [balanced_iff hclosed, total_inner_iff]
  constructor
  · intro h
    obtain ⟨blob, hfound, hloads⟩ := bind_eq_some_iff.1 h
    obtain ⟨b, hb, rfl⟩ := map_eq_some_iff.1 hfound
    obtain ⟨hinit, hzero, hproper⟩ := (blobFrom_eq_some_iff one_pos).1 hb
    have hsame : b = body := by
      rcases prefix_or_prefix_of_prefix hinit (prefix_append body after) with hshort | ⟨w, rfl⟩
      · -- an object that ends early would be closed where the whole text is not
        obtain ⟨inner, rfl⟩ := exists_concat_of_total hzero hproper
        obtain ⟨v, hv⟩ : ∃ v, loads readFloat ( '\x7b' :: inner ++ [ '\x7d']) = some v := by
          cases hl : loads readFloat ( '\x7b' :: (inner ++ [ '\x7d'])) with
          | none =>
            rw [hl] at hloads
            cases hloads
          | some v => exact ⟨v, hl⟩
        have heq := (closed_of_loads hv).eq_of_begins hclosed (by simp) ((cons_prefix_cons).2 ⟨rfl, hshort⟩)
        exact cons_inj_right _ |>.1 heq
      · by_contra hne
        have hw : NoBrace w := fun c hc => hafter c (((prefix_append_right_inj body).1 hinit).subset hc)
        have hpos := hproper body (prefix_append body w) fun heq => hne heq.symm
        rw [total_append, total_noBrace hw, add_zero] at hzero
        exact hpos.ne' hzero
    rw [hsame] at hzero hproper
    exact ⟨hzero, hproper⟩
  · rintro ⟨hzero, hproper⟩
    rw [(blobFrom_eq_some_iff one_pos).2 ⟨prefix_append body after, hzero, hproper⟩, map_some,
      bind_some, hreads]

/-- an object whose string has both braces, after the opening of a code fence -/
theorem extracts_fenced :
    Extracts id (String.ofList ([ '`', '\n'] ++ [ '\x7b', '"', 'a', '"', ':', '"', '\x7b', '\x7d', '"', '\x7d'] ++
        [ '\n', '`'])) [(String.ofList [ 'a'], .str (String.ofList [ '\x7b', '\x7d']))] ↔
      Balanced [ '\x7b', '"', 'a', '"', ':', '"', '\x7b', '\x7d', '"', '\x7d'] :=
  extracts_iff (noBrace_of_all rfl) ⟨rfl, rfl, rfl⟩ (noBrace_of_all rfl)

/-! ## A brace in a string -/

/-- the text of an object that has a closing brace in a string -/
def braceText : List Char := [ '\x7b', '"', 'a', '"', ':', '"', '\x7d', '"', '\x7d']

/-- the object -/
def braceEntries : List (String × Json) := [(String.ofList [ 'a'], .str (String.ofList [ '\x7d']))]

/-- the object is not found -/
theorem brace_in_string : Serialisation id braceEntries braceText ∧
    ¬ Extracts id (String.ofList braceText) braceEntries := by
  refine ⟨⟨rfl, rfl, rfl⟩, fun h => ?_⟩
  have hnone : planningPayload id (String.ofList braceText) = none := by
    rw [planningPayload, parsePayload, String.toList_ofList]
    rfl
  cases hnone.symm.trans h.planning

end Langbridge.Orchestrator.ReplyPayloads
