import Mathlib.Data.List.Forall2
import PeatGateway.Lib.Split
import PeatGateway.Models

/-!
# The configuration of mesh brokers

`PEAT_MESH_BROKERS` lists the brokers that are polled, as `org|app|url|c1,c2` with semicolons
between them.  White space around the parts and blank entries do not matter, and an entry may do
without collections.

## Main definitions

* `MeshBrokerMapping` — what the gateway is configured with for a broker.
* `entries`, `parseEntry`, `parseMeshBrokerMappings` — the parser.
* `printMapping`, `Written` — an entry as it is printed, and with white space.
* `Printable` — mappings that can be printed.
* `Usable` — mappings the gateway can work with.
* `UrlInOrder` — an address is more than slashes, and has no white space before them.

## Main results

* `parseEntry_written` — an entry is read back.
* `parseEntry_isError_iff`, `parseEntry_ok` — which entries are rejected, and what the others say.
* `parseMeshBrokerMappings_spec` — **what is printed is read back, and rejection is exact**.
* `usable_iff` — **when all mappings are usable**.
-/

namespace PeatGateway

open Text

/-- What the gateway is configured with for a broker. -/
structure MeshBrokerMapping where
  orgId : String
  appId : String
  baseUrl : String
  collections : List String
  deriving DecidableEq

/-! ### The parser -/

/-- `default_mesh_collections`. -/
def defaultMeshCollections : List String := ["cot-broadcast", "contacts", "markers", "missions"]

/-- The entries that are not blank. -/
def entries (raw : String) : List String := ((split raw ';').map trim).filter (· ≠ "")

/-- A part that must be there. -/
def required (field entry : String) (part : Option String) : Except Error String :=
  match part.filter (· ≠ "") with
  | some s => .ok s
  | none => .error s!"missing {field} in PEAT_MESH_BROKERS entry '{entry}'"

/-- The collections of an entry: those that are named, if any are. -/
def entryCollections (part : Option String) : List String :=
  let collections := part.map fun segment => ((split segment ',').map trim).filter (· ≠ "")
  (collections.filter (· ≠ [])).getD defaultMeshCollections

/-- One entry. -/
def parseEntry (entry : String) : Except Error MeshBrokerMapping := do
  let parts := (split entry '|').map trim
  let orgId ← required "org_id" entry parts[0]?
  let appId ← required "app_id" entry parts[1]?
  let baseUrl ← required "base_url" entry parts[2]?
  let collections := entryCollections parts[3]?
  return { orgId, appId, baseUrl := trimEndMatches baseUrl '/', collections }

/-- `parse_mesh_broker_mappings`. -/
def parseMeshBrokerMappings : Option String → Except Error (List MeshBrokerMapping)
  | none => .ok []
  | some raw => (entries raw).mapM parseEntry

/-! ### Entries -/

/-- The string is not blank, has no white space around it, and does not hold what stands between
entries and between fields. -/
structure Plain (s : String) : Prop where
  ne : s ≠ ""
  trimmed : Trimmed s
  semicolon : Free ';' s
  bar : Free '|' s

/-- The mapping can be printed. -/
structure Printable (m : MeshBrokerMapping) : Prop where
  orgId : Plain m.orgId
  appId : Plain m.appId
  baseUrl : Plain m.baseUrl
  slash : m.baseUrl.toList.getLast? ≠ some '/'
  collections : ∀ c ∈ m.collections, Plain c ∧ Free ',' c
  ne : m.collections ≠ []

/-- The entry of a mapping. -/
def printMapping (m : MeshBrokerMapping) : String :=
  join '|' [m.orgId, m.appId, m.baseUrl, join ',' m.collections]

/-- The entry is that of the mapping, with white space around its fields. -/
def Written (m : MeshBrokerMapping) (entry : String) : Prop :=
  ∃ orgId appId baseUrl collections, Pads m.orgId orgId ∧ Pads m.appId appId ∧
    Pads m.baseUrl baseUrl ∧ List.Forall₂ Pads m.collections collections ∧
    entry = join '|' [orgId, appId, baseUrl, join ',' collections]

/-- The entry has fewer than three fields, or a blank one among the first three. -/
def Defective (entry : String) : Prop :=
  (split entry '|').length < 3 ∨ ∃ part ∈ (split entry '|').take 3, Blank part

/-- The fields of the entry are those of the mapping. -/
def Describes (entry : String) (m : MeshBrokerMapping) : Prop :=
  ∃ orgId appId baseUrl rest, split entry '|' = orgId :: appId :: baseUrl :: rest ∧
    m = ⟨trim orgId, trim appId, trimEndMatches (trim baseUrl) '/',
      entryCollections (rest.map trim).head?⟩

section Entry

variable {entry : String} {m : MeshBrokerMapping}

/-- A part that must be there is there and is not empty, or the entry is rejected. -/
theorem required_cases (field entry : String) (part : Option String) :
    (∃ s, part = some s ∧ s ≠ "" ∧ required field entry part = .ok s) ∨
      (∀ s, part = some s → s = "") ∧ ∃ e, required field entry part = .error e := by
  unfold required
  cases part with
  | none => exact Or.inr ⟨nofun, _, rfl⟩
  | some s =>
    rw [Option.filter_some]
    by_cases hs : s = ""
    · refine Or.inr ⟨?_, ?_⟩
      · intro s' hs'
        rw [← Option.some.inj hs']
        exact hs
      · rw [if_neg (by simp [hs])]
        exact ⟨_, rfl⟩
    · refine Or.inl ⟨s, rfl, hs, ?_⟩
      rw [if_pos (by simp [hs])]

/-- The trimmed fields of an entry are too few, or one of the first three is empty. -/
theorem defective_iff : Defective entry ↔
    ((split entry '|').map trim).length < 3 ∨ "" ∈ ((split entry '|').map trim).take 3 := by
  rw [Defective, List.length_map, ← List.map_take, List.mem_map]
  simp only [trim_eq_empty_iff]

/-- A missing field makes an entry defective. -/
theorem defective_of_missing {i : ℕ} (hi : i < 3)
    (h : ∀ s, ((split entry '|').map trim)[i]? = some s → s = "") : Defective entry := by
  rw [defective_iff]
  by_cases hlen : ((split entry '|').map trim).length < 3
  · exact Or.inl hlen
  · right
    have hget : i < ((split entry '|').map trim).length := by omega
    have hempty := h _ (List.getElem?_eq_getElem hget)
    rw [← hempty]
    exact List.mem_take_iff_getElem.mpr ⟨i, by omega, rfl⟩

/-- A list of three fields and more. -/
theorem eq_cons_of_getElem? {α : Type} {parts : List α} {a b c : α} (ha : parts[0]? = some a)
    (hb : parts[1]? = some b) (hc : parts[2]? = some c) : parts = a :: b :: c :: parts.drop 3 := by
  match parts, ha, hb, hc with
  | _ :: _ :: _ :: _, rfl, rfl, rfl => rfl

/-- **What becomes of an entry.** -/
theorem parseEntry_cases (entry : String) :
    ((∃ e, parseEntry entry = .error e) ∧ Defective entry) ∨
    ∃ orgId appId baseUrl rest, (split entry '|').map trim = orgId :: appId :: baseUrl :: rest ∧
      orgId ≠ "" ∧ appId ≠ "" ∧ baseUrl ≠ "" ∧
      parseEntry entry =
        .ok ⟨orgId, appId, trimEndMatches baseUrl '/', entryCollections rest.head?⟩ := by
  have hmissing := @defective_of_missing entry
  unfold parseEntry
  generalize (split entry '|').map trim = parts at hmissing ⊢
  dsimp only
  rcases required_cases "org_id" entry parts[0]? with ⟨orgId, ho, hone, hok₀⟩ | ⟨h, e, herr⟩
  · rcases required_cases "app_id" entry parts[1]? with ⟨appId, ha, hane, hok₁⟩ | ⟨h, e, herr⟩
    · rcases required_cases "base_url" entry parts[2]? with ⟨url, hu, hune, hok₂⟩ | ⟨h, e, herr⟩
      · have hparts := eq_cons_of_getElem? ho ha hu
        refine Or.inr ⟨orgId, appId, url, parts.drop 3, hparts, hone, hane, hune, ?_⟩
        rw [hok₀, hok₁, hok₂, List.head?_drop]
        rfl
      · exact Or.inl ⟨⟨e, by rw [hok₀, hok₁, herr]; rfl⟩, hmissing (by omega) h⟩
    · exact Or.inl ⟨⟨e, by rw [hok₀, herr]; rfl⟩, hmissing (by omega) h⟩
  · exact Or.inl ⟨⟨e, by rw [herr]; rfl⟩, hmissing (by omega) h⟩

/-- **An entry is rejected exactly if it is defective.** -/
theorem parseEntry_isError_iff : (∃ e, parseEntry entry = .error e) ↔ Defective entry := by
  rcases parseEntry_cases entry with ⟨herr, hdef⟩ | ⟨orgId, appId, url, rest, hparts, hread⟩
  · exact iff_of_true herr hdef
  · rcases hread with ⟨ho, ha, hu, hok⟩
    refine iff_of_false ?_ ?_
    · intro h
      rcases h with ⟨e, he⟩
      rw [hok] at he
      cases he
    · rw [defective_iff, hparts]
      simp [ho.symm, ha.symm, hu.symm]

/-- **What is read of an entry** are its fields. -/
theorem describes_of_parseEntry (h : parseEntry entry = .ok m) : Describes entry m := by
  rcases parseEntry_cases entry with ⟨⟨e, he⟩, -⟩ | ⟨orgId, appId, url, rest, hparts, -, -, -, hok⟩
  · rw [he] at h
    cases h
  · rw [hok] at h
    cases h
    rcases List.map_eq_cons_iff.mp hparts with ⟨orgId', l₁, hsplit, rfl, hl₁⟩
    rcases List.map_eq_cons_iff.mp hl₁ with ⟨appId', l₂, rfl, rfl, hl₂⟩
    rcases List.map_eq_cons_iff.mp hl₂ with ⟨url', rest', rfl, rfl, rfl⟩
    exact ⟨orgId', appId', url', rest', hsplit, rfl⟩

/-- White space around an entry does not matter. -/
theorem defective_trim : Defective (trim entry) ↔ Defective entry := by
  rw [defective_iff, defective_iff, map_trim_split_trim (by decide)]

theorem describes_trim (h : Describes (trim entry) m) : Describes entry m := by
  rcases h with ⟨orgId, appId, url, rest, hsplit, rfl⟩
  have hparts := @map_trim_split_trim '|' (by decide) entry
  rw [hsplit] at hparts
  rcases List.map_eq_cons_iff.mp hparts.symm with ⟨orgId', l₁, hsplit', horg, hl₁⟩
  rcases List.map_eq_cons_iff.mp hl₁ with ⟨appId', l₂, rfl, happ, hl₂⟩
  rcases List.map_eq_cons_iff.mp hl₂ with ⟨url', rest', rfl, hurl, hrest⟩
  exact ⟨orgId', appId', url', rest', hsplit', by rw [horg, happ, hurl, hrest]⟩

/-! ### Entries that are printed -/

theorem trimEndMatches_eq_self {s : String} {c : Char} (h : s.toList.getLast? ≠ some c) :
    trimEndMatches s c = s := by
  have hlast : s.toList.rdropWhile (· == c) = s.toList := by
    rw [rdropWhile_eq_self_iff_getLast?]
    intro x hx
    apply beq_eq_false_iff_ne.mpr
    intro hxc
    rw [hxc] at hx
    exact h hx
  rw [trimEndMatches, hlast, String.ofList_toList]

/-- Names with white space around them are read back. -/
theorem map_trim_eq {ss ts : List String} (hs : ∀ s ∈ ss, Trimmed s)
    (h : List.Forall₂ Pads ss ts) : ts.map trim = ss := by
  induction h with
  | nil => rfl
  | cons hpad _ ih =>
    rw [List.map_cons, trim_of_pads (hs _ List.mem_cons_self) hpad,
      ih fun s hs' => hs s (List.mem_cons_of_mem _ hs')]

/-- White space holds no separator, so a name with white space around it holds none either. -/
theorem free_of_pads {sep : Char} (hsep : isWhitespace sep = false) {ss ts : List String}
    (hs : ∀ s ∈ ss, Free sep s) (h : List.Forall₂ Pads ss ts) : ∀ t ∈ ts, Free sep t := by
  induction h with
  | nil => nofun
  | cons hpad _ ih =>
    rw [List.forall_mem_cons] at hs ⊢
    exact ⟨hpad.free hsep hs.1, ih hs.2⟩

/-- The collections are read back. -/
theorem entryCollections_join {collections cs : List String}
    (hplain : ∀ c ∈ collections, Plain c ∧ Free ',' c) (hne : collections ≠ [])
    (h : List.Forall₂ Pads collections cs) :
    entryCollections (some (trim (join ',' cs))) = collections := by
  have hcs : cs ≠ [] := by
    intro hnil
    subst hnil
    cases h
    exact hne rfl
  have hfree := free_of_pads (by decide) (fun c hc => (hplain c hc).2) h
  have hread : (split (trim (join ',' cs)) ',').map trim = collections := by
    rw [map_trim_split_trim (by decide), split_join hfree hcs,
      map_trim_eq (fun c hc => (hplain c hc).1.trimmed) h]
  have hkept : collections.filter (· ≠ "") = collections :=
    List.filter_eq_self.mpr fun c hc => decide_eq_true (hplain c hc).1.ne
  rw [entryCollections, Option.map_some, hread, hkept, Option.filter_some,
    if_pos (decide_eq_true hne), Option.getD_some]

/-- **An entry is read back**, whatever white space is around its fields. -/
theorem parseEntry_written (hm : Printable m) (h : Written m entry) :
    parseEntry (trim entry) = .ok m := by
  rcases h with ⟨orgId, appId, url, cs, horg, happ, hurl, hcs, rfl⟩
  have hbar : ∀ s ∈ [orgId, appId, url, join ',' cs], Free '|' s := by
    have hcollections := free_of_pads (by decide) (fun c hc => (hm.collections c hc).1.bar) hcs
    simp only [List.forall_mem_cons]
    exact ⟨horg.free (by decide) hm.orgId.bar, happ.free (by decide) hm.appId.bar,
      hurl.free (by decide) hm.baseUrl.bar, free_join (by decide) hcollections, nofun⟩
  have hparts : (split (trim (join '|' [orgId, appId, url, join ',' cs])) '|').map trim =
      [m.orgId, m.appId, m.baseUrl, trim (join ',' cs)] := by
    rw [map_trim_split_trim (by decide), split_join hbar nofun]
    simp only [List.map_cons, List.map_nil, trim_of_pads hm.orgId.trimmed horg,
      trim_of_pads hm.appId.trimmed happ, trim_of_pads hm.baseUrl.trimmed hurl]
  rcases parseEntry_cases (trim (join '|' [orgId, appId, url, join ',' cs])) with
    ⟨-, hdef⟩ | ⟨_, _, _, rest, hparts', -, -, -, hok⟩
  · rw [defective_iff, hparts] at hdef
    simp [hm.orgId.ne.symm, hm.appId.ne.symm, hm.baseUrl.ne.symm] at hdef
  · rw [hparts] at hparts'
    cases hparts'
    rw [hok, trimEndMatches_eq_self hm.slash, List.head?_cons,
      entryCollections_join hm.collections hm.ne hcs]

/-- An entry that is written holds no semicolon. -/
theorem Written.free (hm : Printable m) (h : Written m entry) : Free ';' entry := by
  rcases h with ⟨orgId, appId, url, cs, horg, happ, hurl, hcs, rfl⟩
  have hcollections := free_of_pads (by decide) (fun c hc => (hm.collections c hc).1.semicolon) hcs
  apply free_join (by decide)
  simp only [List.forall_mem_cons]
  exact ⟨horg.free (by decide) hm.orgId.semicolon, happ.free (by decide) hm.appId.semicolon,
    hurl.free (by decide) hm.baseUrl.semicolon, free_join (by decide) hcollections, nofun⟩

/-- An entry that is printed is one that is written. -/
theorem written_printMapping (m : MeshBrokerMapping) : Written m (printMapping m) :=
  ⟨m.orgId, m.appId, m.baseUrl, m.collections, .refl _, .refl _, .refl _,
    List.forall₂_same.mpr fun c _ => .refl c, rfl⟩

/-- The entries of the printed list. -/
def printMappings (ms : List MeshBrokerMapping) : String := join ';' (ms.map printMapping)

end Entry

/-! ### Lists of entries -/

section Loop

variable {α β : Type} {f : α → Except Error β}

/-- A loop that stops at the first error. -/
theorem mapM_cases (f : α → Except Error β) (l : List α) :
    ((∃ e, l.mapM f = .error e) ∧ ∃ x ∈ l, ∃ e, f x = .error e) ∨
      (∀ x ∈ l, ∃ y, f x = .ok y) ∧
        ∃ ys, l.mapM f = .ok ys ∧ List.Forall₂ (fun x y => f x = .ok y) l ys := by
  induction l with
  | nil => exact Or.inr ⟨nofun, [], rfl, .nil⟩
  | cons x l ih =>
    rw [List.mapM_cons]
    cases hx : f x with
    | error e => exact Or.inl ⟨⟨e, rfl⟩, x, List.mem_cons_self, e, hx⟩
    | ok y =>
      rcases ih with ⟨⟨e, herr⟩, x', hx', e', he'⟩ | ⟨hall, ys, hys, hread⟩
      · rw [herr]
        exact Or.inl ⟨⟨e, rfl⟩, x', List.mem_cons_of_mem _ hx', e', he'⟩
      · rw [hys]
        exact Or.inr ⟨List.forall_mem_cons.mpr ⟨⟨y, hx⟩, hall⟩, y :: ys, rfl, .cons hx hread⟩

theorem mapM_eq_ok {l : List α} {ys : List β} (h : List.Forall₂ (fun x y => f x = .ok y) l ys) :
    l.mapM f = .ok ys := by
  induction h with
  | nil => rfl
  | cons hx _ ih =>
    rw [List.mapM_cons, hx, ih]
    rfl

end Loop

/-- The entries are the parts that are not blank, trimmed. -/
theorem entries_eq (raw : String) :
    entries raw = ((split raw ';').filter (¬ Blank ·)).map trim := by
  rw [entries, List.filter_map]
  refine congrArg (List.map trim) (List.filter_congr ?_)
  intro s _
  simp [trim_eq_empty_iff]

theorem read_of_written {ms : List MeshBrokerMapping} {es : List String}
    (hms : ∀ m ∈ ms, Printable m) (h : List.Forall₂ Written ms es) :
    (∀ e ∈ es, Free ';' e) ∧
      List.Forall₂ (fun e m => parseEntry e = .ok m) (es.map trim) ms := by
  induction h with
  | nil => exact ⟨nofun, .nil⟩
  | cons hwritten _ ih =>
    rw [List.forall_mem_cons] at hms
    have hrest := ih hms.2
    rw [List.forall_mem_cons]
    exact ⟨⟨hwritten.free hms.1, hrest.1⟩, .cons (parseEntry_written hms.1 hwritten) hrest.2⟩

/-- **A list is read back**, whatever white space is around the fields, and whatever blank entries
are among the others. -/
theorem parse_written {ms : List MeshBrokerMapping} {es : List String}
    (hms : ∀ m ∈ ms, Printable m) (h : List.Forall₂ Written ms (es.filter (¬ Blank ·))) :
    parseMeshBrokerMappings (some (join ';' es)) = .ok ms := by
  have hread := read_of_written hms h
  cases es with
  | nil =>
    cases h
    have hsplit : split (join ';' []) ';' = [""] := split_of_free (by decide)
    rw [parseMeshBrokerMappings, entries_eq, hsplit]
    decide
  | cons e es =>
    have hfree : ∀ s ∈ e :: es, Free ';' s := by
      intro s hs
      by_cases hblank : Blank s
      · exact hblank.free (by decide)
      · exact hread.1 s (List.mem_filter.mpr ⟨hs, decide_eq_true hblank⟩)
    rw [parseMeshBrokerMappings, entries_eq, split_join hfree nofun]
    exact mapM_eq_ok hread.2

/-- What is printed is not blank. -/
theorem not_blank_printMapping (m : MeshBrokerMapping) : ¬ Blank (printMapping m) := by
  intro h
  have hbar : isWhitespace '|' = true := by
    apply h
    simp [printMapping, join]
  exact absurd hbar (by decide)

/-- **What is printed is read back.** -/
theorem parse_printMappings {ms : List MeshBrokerMapping} (hms : ∀ m ∈ ms, Printable m) :
    parseMeshBrokerMappings (some (printMappings ms)) = .ok ms := by
  apply parse_written hms
  have hkept : (ms.map printMapping).filter (¬ Blank ·) = ms.map printMapping := by
    rw [List.filter_eq_self]
    intro e he
    rcases List.mem_map.mp he with ⟨m, -, rfl⟩
    exact decide_eq_true (not_blank_printMapping m)
  rw [hkept, List.forall₂_map_right_iff, List.forall₂_same]
  intro m _
  exact written_printMapping m

theorem mem_entries {raw e : String} :
    e ∈ entries raw ↔ ∃ entry ∈ split raw ';', ¬ Blank entry ∧ trim entry = e := by
  simp only [entries_eq, List.mem_map, List.mem_filter, decide_eq_true_eq, and_assoc]

/-- **A list is rejected exactly if one of its entries is defective.** -/
theorem parse_cases (raw : String) :
    ((∃ e, parseMeshBrokerMappings (some raw) = .error e) ∧
      ∃ entry ∈ split raw ';', ¬ Blank entry ∧ Defective entry) ∨
    (¬ ∃ entry ∈ split raw ';', ¬ Blank entry ∧ Defective entry) ∧
      ∃ ms, parseMeshBrokerMappings (some raw) = .ok ms ∧
        List.Forall₂ (fun entry m => parseEntry (trim entry) = .ok m)
          ((split raw ';').filter (¬ Blank ·)) ms := by
  rcases mapM_cases parseEntry (entries raw) with ⟨herr, e, he, hbad⟩ | ⟨hall, ms, hok, hread⟩
  · rcases mem_entries.mp he with ⟨entry, hentry, hblank, rfl⟩
    rw [parseEntry_isError_iff, defective_trim] at hbad
    exact Or.inl ⟨herr, entry, hentry, hblank, hbad⟩
  · refine Or.inr ⟨?_, ms, hok, ?_⟩
    · intro h
      rcases h with ⟨entry, hentry, hblank, hdef⟩
      rw [← defective_trim, ← parseEntry_isError_iff] at hdef
      rcases hdef with ⟨e, he⟩
      rcases hall (trim entry) (mem_entries.mpr ⟨entry, hentry, hblank, rfl⟩) with ⟨m, hm⟩
      rw [he] at hm
      cases hm
    · rw [entries_eq, List.forall₂_map_left_iff] at hread
      exact hread

/-- **What is printed is read back, and rejection is exact.**  White space around the fields and
blank entries do not matter.  A list is rejected exactly if an entry that is not blank has fewer
than three fields, or a blank one among the first three; otherwise there is one mapping for each
entry that is not blank, in order, with its fields. -/
theorem parseMeshBrokerMappings_spec :
    (∀ ms, (∀ m ∈ ms, Printable m) →
      parseMeshBrokerMappings (some (printMappings ms)) = .ok ms) ∧
    (∀ ms es, (∀ m ∈ ms, Printable m) → List.Forall₂ Written ms (es.filter (¬ Blank ·)) →
      parseMeshBrokerMappings (some (join ';' es)) = .ok ms) ∧
    (∀ raw, (∃ e, parseMeshBrokerMappings (some raw) = .error e) ↔
      ∃ entry ∈ split raw ';', ¬ Blank entry ∧ Defective entry) ∧
    ∀ raw, (¬ ∃ entry ∈ split raw ';', ¬ Blank entry ∧ Defective entry) →
      ∃ ms, parseMeshBrokerMappings (some raw) = .ok ms ∧
        List.Forall₂ Describes ((split raw ';').filter (¬ Blank ·)) ms := by
  refine ⟨fun ms => parse_printMappings, fun ms es => parse_written, ?_, ?_⟩
  · intro raw
    rcases parse_cases raw with ⟨herr, hdef⟩ | ⟨hnot, ms, hok, -⟩
    · exact iff_of_true herr hdef
    · refine iff_of_false ?_ hnot
      intro h
      rcases h with ⟨e, he⟩
      rw [hok] at he
      cases he
  · intro raw h
    rcases parse_cases raw with ⟨-, hdef⟩ | ⟨-, ms, hok, hread⟩
    · exact absurd hdef h
    · refine ⟨ms, hok, hread.imp ?_⟩
      intro entry m hm
      exact describes_trim (describes_of_parseEntry hm)

/-- A mapping with one collection. -/
def acmeMapping : MeshBrokerMapping := ⟨"acme", "mesh", "http://h", ["tracks"]⟩

theorem printable_acmeMapping : Printable acmeMapping where
  orgId := ⟨by decide, by decide, by decide, by decide⟩
  appId := ⟨by decide, by decide, by decide, by decide⟩
  baseUrl := ⟨by decide, by decide, by decide, by decide⟩
  slash := by decide
  collections := by
    intro c hc
    rw [List.mem_singleton.mp hc]
    exact ⟨⟨by decide, by decide, by decide, by decide⟩, by decide⟩
  ne := by decide

/-- The mapping is read back, and an entry without an address is rejected. -/
theorem parseMeshBrokerMappings_acme :
    parseMeshBrokerMappings (some (printMappings [acmeMapping])) = .ok [acmeMapping] ∧
      ∃ e, parseMeshBrokerMappings (some "acme|mesh") = .error e := by
  have hprintable : ∀ m ∈ [acmeMapping], Printable m := by
    intro m hm
    rw [List.mem_singleton.mp hm]
    exact printable_acmeMapping
  have hentries : split "acme|mesh" ';' = ["acme|mesh"] := split_of_free (by decide)
  have hfields : split "acme|mesh" '|' = ["acme", "mesh"] := by
    have hglue : "acme|mesh" = glue '|' "acme" "mesh" := by decide
    rw [hglue, split_glue (by decide), split_of_free (by decide)]
  refine ⟨parseMeshBrokerMappings_spec.1 [acmeMapping] hprintable, ?_⟩
  refine (parseMeshBrokerMappings_spec.2.2.1 "acme|mesh").mpr
    ⟨"acme|mesh", ?_, by decide, Or.inl ?_⟩
  · rw [hentries]
    exact List.mem_singleton_self _
  · rw [hfields]
    decide

/-! ### Mappings the gateway can work with -/

/-- The gateway can work with the mapping. -/
structure Usable (m : MeshBrokerMapping) : Prop where
  orgId : m.orgId ≠ "" ∧ Trimmed m.orgId
  appId : m.appId ≠ "" ∧ Trimmed m.appId
  baseUrl : m.baseUrl ≠ "" ∧ Trimmed m.baseUrl
  slash : m.baseUrl.toList.getLast? ≠ some '/'
  ne : m.collections ≠ []
  collections : ∀ c ∈ m.collections, c ≠ "" ∧ Trimmed c

/-- The address is more than slashes, and there is no white space before those at its end. -/
def UrlInOrder (url : String) : Prop :=
  ∃ v c n, url.toList = v ++ c :: List.replicate n '/' ∧ c ≠ '/' ∧ isWhitespace c = false

/-- Slashes that are stripped are not at the end. -/
theorem getLast?_trimEndMatches (s : String) (c : Char) :
    (trimEndMatches s c).toList.getLast? ≠ some c := by
  have hlast := rdropWhile_eq_self_iff_getLast?.mp (List.rdropWhile_idempotent (· == c) s.toList)
  rw [trimEndMatches, String.toList_ofList]
  intro h
  exact absurd (hlast c h) (by simp)

/-- An address is what is left of it and the slashes that are stripped. -/
theorem exists_slashes (url : String) :
    ∃ n, url.toList = (trimEndMatches url '/').toList ++ List.replicate n '/' := by
  have hslash : ∀ c ∈ url.toList.rtakeWhile (· == '/'), c = '/' := by
    intro c hc
    have hc' : (c == '/') = true := List.mem_rtakeWhile_imp (p := (· == '/')) hc
    exact beq_iff_eq.mp hc'
  refine ⟨(url.toList.rtakeWhile (· == '/')).length, ?_⟩
  rw [← List.eq_replicate_length.mpr hslash, trimEndMatches, String.toList_ofList,
    List.rdropWhile_append_rtakeWhile]

/-- **Stripping the slashes leaves an address exactly if it is in order.** -/
theorem urlInOrder_iff {url : String} (hurl : Trimmed url) :
    trimEndMatches url '/' ≠ "" ∧ Trimmed (trimEndMatches url '/') ↔ UrlInOrder url := by
  constructor
  · intro h
    rcases List.eq_nil_or_concat (trimEndMatches url '/').toList with hnil | ⟨v, c, hvc⟩
    · exact absurd (String.toList_eq_nil_iff.mp hnil) h.1
    · rw [List.concat_eq_append] at hvc
      have hlast : (trimEndMatches url '/').toList.getLast? = some c := by simp [hvc]
      have hc : c ≠ '/' := by
        intro hc
        rw [hc] at hlast
        exact getLast?_trimEndMatches url '/' hlast
      rcases exists_slashes url with ⟨n, hn⟩
      rw [hvc, List.append_assoc] at hn
      exact ⟨v, c, n, hn, hc, (trimmed_iff.mp h.2).2 c hlast⟩
  · intro h
    rcases h with ⟨v, c, n, hsplit, hc, hspace⟩
    have hstripped : (trimEndMatches url '/').toList = v ++ [c] := by
      have hsplit' : url.toList = (v ++ [c]) ++ List.replicate n '/' := by
        rw [hsplit, List.append_assoc]
        rfl
      have hslash : ∀ x ∈ List.replicate n '/', (x == '/') = true := by
        intro x hx
        exact beq_iff_eq.mpr (List.eq_of_mem_replicate hx)
      rw [trimEndMatches, String.toList_ofList, hsplit', rdropWhile_append_of_forall hslash,
        List.rdropWhile_concat_neg]
      simp [hc]
    refine ⟨?_, ?_⟩
    · rw [ne_eq, ← String.toList_eq_nil_iff, hstripped]
      simp
    · rw [trimmed_iff, hstripped]
      constructor
      · -- it starts as the address does
        intro x hx
        apply (trimmed_iff.mp hurl).1 x
        rw [hsplit]
        cases v with
        | nil => exact hx
        | cons y v => exact hx
      · intro x hx
        rw [List.getLast?_concat] at hx
        cases hx
        exact hspace

/-- The collections of an entry are there, and are names. -/
theorem entryCollections_usable (part : Option String) :
    entryCollections part ≠ [] ∧ ∀ c ∈ entryCollections part, c ≠ "" ∧ Trimmed c := by
  have hdefault : defaultMeshCollections ≠ [] ∧
      ∀ c ∈ defaultMeshCollections, c ≠ "" ∧ Trimmed c := by decide
  cases part with
  | none => exact hdefault
  | some segment =>
    rw [entryCollections, Option.map_some, Option.filter_some]
    split
    · next hne =>
      refine ⟨of_decide_eq_true hne, ?_⟩
      intro c hc
      rcases List.mem_filter.mp hc with ⟨hmem, hne⟩
      rcases List.mem_map.mp hmem with ⟨s, -, rfl⟩
      exact ⟨of_decide_eq_true hne, trimmed_trim s⟩
    · exact hdefault

/-- **The mapping of an entry is usable exactly if its address is in order.** -/
theorem usable_iff_of_parseEntry {entry : String} {m : MeshBrokerMapping}
    (h : parseEntry (trim entry) = .ok m) :
    Usable m ↔ ∀ url, (split entry '|')[2]? = some url → UrlInOrder (trim url) := by
  rcases parseEntry_cases (trim entry) with ⟨⟨e, he⟩, -⟩ | ⟨orgId, appId, url, rest, hparts, hread⟩
  · rw [he] at h
    cases h
  · rcases hread with ⟨horg, happ, -, hok⟩
    rw [hok] at h
    cases h
    rw [map_trim_split_trim (by decide)] at hparts
    have htrimmed : ∀ s ∈ (split entry '|').map trim, Trimmed s := by
      intro s hs
      rcases List.mem_map.mp hs with ⟨t, -, rfl⟩
      exact trimmed_trim t
    have hthird : (split entry '|')[2]?.map trim = some url := by
      rw [← List.getElem?_map, hparts]
      rfl
    rcases Option.map_eq_some_iff.mp hthird with ⟨third, hget, hurl⟩
    rw [hparts] at htrimmed
    simp only [List.forall_mem_cons] at htrimmed
    have hcollections := entryCollections_usable rest.head?
    have hinOrder : (∀ s, (split entry '|')[2]? = some s → UrlInOrder (trim s)) ↔
        UrlInOrder url := by
      simp [hget, hurl]
    rw [hinOrder, ← urlInOrder_iff htrimmed.2.2.1]
    constructor
    · intro h
      exact h.baseUrl
    · intro h
      exact ⟨⟨horg, htrimmed.1⟩, ⟨happ, htrimmed.2.1⟩, h, getLast?_trimEndMatches url '/',
        hcollections.1, hcollections.2⟩

/-- Lists whose members say the same of one another. -/
theorem forall_iff_of_forall₂ {α β : Type} {R : α → β → Prop} {P : α → Prop} {Q : β → Prop}
    (hPQ : ∀ x y, R x y → (Q y ↔ P x)) {l : List α} {ys : List β} (h : List.Forall₂ R l ys) :
    (∀ y ∈ ys, Q y) ↔ ∀ x ∈ l, P x := by
  induction h with
  | nil => simp
  | cons hxy _ ih => rw [List.forall_mem_cons, List.forall_mem_cons, ih, hPQ _ _ hxy]

/-- **All mappings are usable exactly if all addresses are in order**: the third field of every
entry that is not blank is more than slashes, and has no white space before those at its end. -/
theorem usable_iff {raw : String} {ms : List MeshBrokerMapping}
    (h : parseMeshBrokerMappings (some raw) = .ok ms) :
    (∀ m ∈ ms, Usable m) ↔ ∀ entry ∈ split raw ';', ¬ Blank entry →
      ∀ url, (split entry '|')[2]? = some url → UrlInOrder (trim url) := by
  rcases parse_cases raw with ⟨⟨e, he⟩, -⟩ | ⟨-, ms', hok, hread⟩
  · rw [he] at h
    cases h
  · rw [hok] at h
    cases h
    have hentry : ∀ entry m, parseEntry (trim entry) = .ok m →
        (Usable m ↔ ∀ url, (split entry '|')[2]? = some url → UrlInOrder (trim url)) :=
      fun entry m => usable_iff_of_parseEntry
    rw [forall_iff_of_forall₂ hentry hread]
    simp only [List.mem_filter, decide_eq_true_eq, and_imp]

/-- The slash at the end of an address does not matter. -/
theorem usable_acme : Usable acmeMapping := by
  have hread : parseMeshBrokerMappings (some "acme|mesh|http://h/|tracks") = .ok [acmeMapping] := by
    decide +kernel
  refine (usable_iff hread).mpr ?_ acmeMapping (List.mem_singleton_self _)
  intro entry hentry _ url hurl
  have hentries : split "acme|mesh|http://h/|tracks" ';' = ["acme|mesh|http://h/|tracks"] :=
    split_of_free (by decide)
  rw [hentries] at hentry
  rw [List.mem_singleton.mp hentry] at hurl
  have hthird : (split "acme|mesh|http://h/|tracks" '|')[2]? = some "http://h/" := by
    decide +kernel
  rw [hthird] at hurl
  cases hurl
  exact ⟨"http://".toList, 'h', 1, by decide +kernel, by decide, by decide⟩

/-- An address of slashes is lost, and one with a blank before the slash keeps the blank. -/
theorem not_usable :
    (parseMeshBrokerMappings (some "acme|mesh|/|tracks") =
        .ok [⟨"acme", "mesh", "", ["tracks"]⟩] ∧
      ¬ Usable ⟨"acme", "mesh", "", ["tracks"]⟩) ∧
    parseMeshBrokerMappings (some "acme|mesh|http://h /|tracks") =
        .ok [⟨"acme", "mesh", "http://h ", ["tracks"]⟩] ∧
      ¬ Usable ⟨"acme", "mesh", "http://h ", ["tracks"]⟩ := by
  refine ⟨⟨by decide +kernel, ?_⟩, by decide +kernel, ?_⟩
  · intro h
    exact h.baseUrl.1 rfl
  · intro h
    exact absurd h.baseUrl.2 (by decide)

end PeatGateway
