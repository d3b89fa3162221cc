import PeatGateway.Cdc.Watcher
import PeatGateway.Lib.Order

/-!
# What is hashed of a change

The id of the document, the time, and the names and values of the fields, sorted by name, are fed
to the hasher one after the other, without their number.  Every string ends in a byte that UTF-8
does not use, and the time is of a fixed length, so nothing is fed twice for different changes.

## Main results

* `hashInput_congr` — **the order of the fields does not matter**.
* `hashInput_inj` — **the parts can be read off what is fed**.
* `hashInput_canonical` — both.
-/

namespace PeatGateway

open Text

/-! ### The parts -/

theorem hashStr_eq (s : String) : hashStr s = frames 0xff [utf8 s] := by
  simp [hashStr]

theorem length_hashU64 (n : UInt64) : (hashU64 n).length = 8 := by
  rw [hashU64, List.length_map, List.length_range]

/-- A number is known by its eight bytes. -/
theorem hashU64_inj {m n : UInt64} (h : hashU64 m = hashU64 n) : m = n := by
  have hbyte : ∀ i < 8, m.toNat / 256 ^ i % 256 = n.toNat / 256 ^ i % 256 := by
    intro i hi
    have hget : UInt8.ofNat (m.toNat / 256 ^ i % 256) = UInt8.ofNat (n.toNat / 256 ^ i % 256) :=
      List.map_inj_left.mp h i (List.mem_range.mpr hi)
    have hnat := congrArg UInt8.toNat hget
    rw [UInt8.toNat_ofNat', UInt8.toNat_ofNat'] at hnat
    omega
  have hm : m.toNat < 256 ^ 8 := m.toNat_lt
  have hn : n.toNat < 256 ^ 8 := n.toNat_lt
  exact UInt64.toNat_inj.mp (Wire.eq_of_digits_eq hm hn hbyte)

/-- The text of a field. -/
def Fields.text (fields : Fields) (k : String) : String :=
  ((fields.select k).map Json.toText).getD ""

theorem Fields.mem_sortedKeys {fields : Fields} {k : String} :
    k ∈ fields.sortedKeys ↔ ∃ v, fields.select k = some v := by
  simp only [Fields.sortedKeys, List.mem_insertionSort, List.mem_map, Prod.exists, exists_and_right,
    exists_eq_right, Rows.mem_rows]

/-- The names and the texts of the fields. -/
def Fields.blocks (fields : Fields) : List Bytes :=
  fields.sortedKeys.flatMap fun k => [utf8 k, utf8 (fields.text k)]

/-- What is fed to the hasher, as blocks that end in `0xff`. -/
theorem hashInput_eq (docId : String) (fields : Fields) (t : UInt64) :
    hashInput docId fields t = utf8 docId ++ 0xff :: (hashU64 t ++ frames 0xff fields.blocks) := by
  have hfield : ∀ k ∈ fields.sortedKeys,
      hashStr k ++ ((fields.select k).elim [] fun v => hashStr v.toText) =
        frames 0xff [utf8 k, utf8 (fields.text k)] := by
    intro k hk
    rcases Fields.mem_sortedKeys.mp hk with ⟨v, hv⟩
    rw [Fields.text, hv]
    simp [hashStr]
  rw [hashInput, List.flatMap_congr hfield, hashStr_eq, Fields.blocks]
  simp [frames, List.flatMap_assoc]

/-! ### The order of the fields -/

/-- Sorting forgets the order. -/
theorem Fields.sortedKeys_congr {fields fields' : Fields}
    (h : ∀ k, fields.select k = fields'.select k) : fields.sortedKeys = fields'.sortedKeys := by
  let r : String → String → Prop := fun k k' => (compare k k').isLE = true
  have htotal : Std.Total r := ⟨Rows.isLE_total⟩
  have htrans : IsTrans String r := ⟨fun _ _ _ => Std.TransCmp.isLE_trans⟩
  have hperm : (fields.rows.map Prod.fst).Perm (fields'.rows.map Prod.fst) := by
    apply (List.perm_ext_iff_of_nodup fields.nodup fields'.nodup).mpr
    intro k
    have hmem : k ∉ fields.rows.map Prod.fst ↔ k ∉ fields'.rows.map Prod.fst := by
      rw [← Rows.select_eq_none, ← Rows.select_eq_none, h]
    exact not_iff_not.mp hmem
  refine List.Perm.eq_of_pairwise ?_ (List.pairwise_insertionSort r _)
    (List.pairwise_insertionSort r _)
    (((List.perm_insertionSort r _).trans hperm).trans (List.perm_insertionSort r _).symm)
  intro k k' _ _ hle hle'
  exact Std.LawfulEqCmp.eq_of_compare (Std.OrientedCmp.isLE_antisymm hle hle')

/-- **The order of the fields does not matter.** -/
theorem hashInput_congr {fields fields' : Fields} (h : ∀ k, fields.select k = fields'.select k)
    (docId : String) (t : UInt64) : hashInput docId fields t = hashInput docId fields' t := by
  have hkeys := Fields.sortedKeys_congr h
  unfold hashInput
  rw [hkeys]
  simp only [h]

/-! ### Reading the parts -/

/-- No block holds the terminator. -/
theorem Fields.not_mem_blocks (fields : Fields) : ∀ x ∈ fields.blocks, (0xff : UInt8) ∉ x := by
  intro x hx
  rcases List.mem_flatMap.mp hx with ⟨k, -, hk⟩
  simp only [List.mem_cons, List.not_mem_nil, or_false] at hk
  rcases hk with rfl | rfl <;> exact not_mem_utf8 _

/-- Blocks tell the names and the texts. -/
theorem eq_of_blocks {ks ks' : List String} {f f' : String → String}
    (h : (ks.flatMap fun k => [utf8 k, utf8 (f k)]) = ks'.flatMap fun k => [utf8 k, utf8 (f' k)]) :
    ks = ks' ∧ ∀ k ∈ ks, f k = f' k := by
  induction ks generalizing ks' with
  | nil =>
    cases ks' with
    | nil => exact ⟨rfl, nofun⟩
    | cons k' ks' => simp at h
  | cons k ks ih =>
    cases ks' with
    | nil => simp at h
    | cons k' ks' =>
      simp only [List.flatMap_cons, List.cons_append, List.nil_append, List.cons.injEq] at h
      rcases h with ⟨hname, htext, hrest⟩
      have hk : k = k' := utf8_inj.mp hname
      subst hk
      have hks := ih hrest
      refine ⟨by rw [hks.1], ?_⟩
      intro k₁ hk₁
      rcases List.mem_cons.mp hk₁ with rfl | hk₁
      · exact utf8_inj.mp htext
      · exact hks.2 k₁ hk₁

/-- **The parts can be read off what is fed**, if the texts of the values tell them. -/
theorem hashInput_inj {docId docId' : String} {fields fields' : Fields} {t t' : UInt64}
    (hjson : ∀ k v v', fields.select k = some v → fields'.select k = some v' →
      v.toText = v'.toText → v = v')
    (h : hashInput docId fields t = hashInput docId' fields' t') :
    docId = docId' ∧ t = t' ∧ ∀ k, fields.select k = fields'.select k := by
  rw [hashInput_eq, hashInput_eq] at h
  have hdoc := append_cons_inj (not_mem_utf8 docId) (not_mem_utf8 docId') h
  have hlen : (hashU64 t).length = (hashU64 t').length := by rw [length_hashU64, length_hashU64]
  have htime := List.append_inj hdoc.2 hlen
  have hblocks := frames_inj fields.not_mem_blocks fields'.not_mem_blocks htime.2
  have hkeys := eq_of_blocks hblocks
  refine ⟨utf8_inj.mp hdoc.1, hashU64_inj htime.1, ?_⟩
  intro k
  cases hk : fields.select k with
  | none =>
    cases hk' : fields'.select k with
    | none => rfl
    | some v' =>
      have hmem := Fields.mem_sortedKeys.mpr ⟨v', hk'⟩
      rw [← hkeys.1] at hmem
      rcases Fields.mem_sortedKeys.mp hmem with ⟨v, hv⟩
      rw [hk] at hv
      cases hv
  | some v =>
    have hmem := Fields.mem_sortedKeys.mpr ⟨v, hk⟩
    have htext := hkeys.2 k hmem
    rw [hkeys.1] at hmem
    rcases Fields.mem_sortedKeys.mp hmem with ⟨v', hv'⟩
    rw [Fields.text, Fields.text, hk, hv'] at htext
    rw [hv', hjson k v v' hk hv' htext]

/-- **What is hashed of a change is canonical and unambiguous**: it does not depend on the order
in which the map holds the fields, and different changes are told apart by it, if different values
have different texts. -/
theorem hashInput_canonical {docId docId' : String} {fields fields' : Fields} {t t' : UInt64}
    (hjson : ∀ k v v', fields.select k = some v → fields'.select k = some v' →
      v.toText = v'.toText → v = v') :
    (∀ reordered : Fields, reordered.rows.Perm fields.rows →
      hashInput docId reordered t = hashInput docId fields t) ∧
    (hashInput docId fields t = hashInput docId' fields' t' →
      docId = docId' ∧ t = t' ∧ ∀ k, fields.select k = fields'.select k) := by
  refine ⟨?_, hashInput_inj hjson⟩
  intro reordered hperm
  exact hashInput_congr (fun k => Rows.select_congr fun v => hperm.mem_iff) docId t

/-- Two fields, and the same held in the other order. -/
def sampleFields : Fields := ⟨[("z", .number "1"), ("a", .bool true)], by decide⟩

/-- The same two fields, in the other order. -/
def swappedFields : Fields := ⟨[("a", .bool true), ("z", .number "1")], by decide⟩

/-- The order of the fields does not matter, and the time does. -/
theorem hashInput_canonical_sample :
    hashInput "doc-1" swappedFields 1 = hashInput "doc-1" sampleFields 1 ∧
      hashInput "doc-1" sampleFields 1 ≠ hashInput "doc-1" sampleFields 2 := by
  have hcanonical := @hashInput_canonical "doc-1" "doc-1" sampleFields sampleFields 1 2
    fun k v v' hv hv' _ => Option.some.inj (hv.symm.trans hv')
  refine ⟨hcanonical.1 swappedFields (List.Perm.swap _ _ _), ?_⟩
  intro h
  exact absurd (hcanonical.2 h).2.1 (by decide)

end PeatGateway
