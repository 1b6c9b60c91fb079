import Mathlib.Data.List.Nodup
import Tako.Orchestrator.Basic
import Tako.Theory.DelimitedRecords

/-!
# The fingerprint of a policy

`compute_sha` (`tako-governance/src/policy.rs`) hashes each file's name and source with a colon
between them and a line feed behind them. Nothing marks a colon or a line feed within a file, so the
hashed bytes belong to one set of sources only if this is a single file without colons.
-/

namespace Tako.Governance

open DelimitedRecords
open Orchestrator (Codec utf8 hexDigest utf8_append utf8_injective)

/-- `HashMap<String, String>` from file names to sources, in the order of its iteration. -/
structure Sources where
  entries : List (String × String)
  nodup : (entries.map Prod.fst).Nodup

namespace Sources

/-- The same map. -/
def Same (s t : Sources) : Prop := s.entries.Perm t.entries

/-- `OpaBundle::from_string`. -/
def fromString (name source : String) : Sources := ⟨[(name, source)], List.nodup_singleton name⟩

variable (s : Sources)

/-- `sources.keys()`, sorted. -/
def keys : List String := (s.entries.map Prod.fst).mergeSort fun a b => decide (a ≤ b)

/-- `sources[k]`; every key that is asked for is in the map. -/
def get (k : String) : String := (s.entries.lookup k).getD ""

/-- The bytes that the hasher is given. -/
def shaInput : List UInt8 :=
  s.keys.flatMap fun k => utf8 k ++ utf8 ":" ++ utf8 (s.get k) ++ utf8 "\n"

/-- `compute_sha`. -/
def computeSha (codec : Codec) : String := hexDigest (codec.sha256 s.shaInput)

/-! ## The hashed records -/

/-- The files in the order of their names. -/
def sorted : List (String × String) := s.keys.map fun k => (k, s.get k)

def chars (e : String × String) : List Char × List Char := (e.1.toList, e.2.toList)

def text : List Char := records ':' '\n' (s.sorted.map chars)

theorem keys_perm : s.keys.Perm (s.entries.map Prod.fst) := List.mergeSort_perm _ _

theorem lookup_of_mem {es : List (String × String)} (hnodup : (es.map Prod.fst).Nodup)
    {e : String × String} (h : e ∈ es) : es.lookup e.1 = some e.2 := by
  induction es with
  | nil => cases h
  | cons d es ih =>
    obtain ⟨k, v⟩ := d
    rw [List.map_cons, List.nodup_cons] at hnodup
    rcases List.mem_cons.1 h with rfl | hmem
    · simp
    · have hne : e.1 ≠ k := by
        rintro rfl
        exact hnodup.1 (List.mem_map.2 ⟨e, hmem, rfl⟩)
      have hbeq : (e.1 == k) = false := by simpa using hne
      rw [List.lookup_cons, hbeq]
      exact ih hnodup.2 hmem

theorem sorted_perm : s.sorted.Perm s.entries := by
  have hmap : (s.entries.map Prod.fst).map (fun k => (k, s.get k)) = s.entries := by
    rw [List.map_map]
    refine (List.map_congr_left fun e he => ?_).trans (List.map_id _)
    simp [get, lookup_of_mem s.nodup he]
  exact (s.keys_perm.map _).trans (List.Perm.of_eq hmap)

theorem shaInput_eq : s.shaInput = utf8 (String.ofList s.text) := by
  unfold shaInput text sorted
  induction s.keys with
  | nil => rfl
  | cons k ks ih =>
    have hrecord :
      String.ofList (records ':' '\n' (((k :: ks).map fun k => (k, s.get k)).map chars)) =
        k ++ ":" ++ s.get k ++ "\n" ++
          String.ofList (records ':' '\n' ((ks.map fun k => (k, s.get k)).map chars)) := by
      apply String.toList_injective
      simp [records, record, chars, String.toList_append]
    rw [hrecord, List.flatMap_cons, ih, utf8_append, utf8_append, utf8_append, utf8_append]

theorem shaInput_eq_iff {s t : Sources} : t.shaInput = s.shaInput ↔ t.text = s.text := by
  rw [shaInput_eq, shaInput_eq]
  refine ⟨fun h => ?_, fun h => by rw [h]⟩
  exact String.ofList_injective (utf8_injective h)

variable {s} {e : String × String}

theorem sorted_of_single (h : s.entries = [e]) : s.sorted = [e] :=
  List.perm_singleton.1 (h ▸ s.sorted_perm)

theorem entries_of_sorted (h : s.sorted = [e]) : s.entries = [e] :=
  List.perm_singleton.1 (h ▸ s.sorted_perm.symm)

theorem text_of_single (h : s.entries = [e]) : s.text = record ':' '\n' (chars e) := by
  rw [text, sorted_of_single h, List.map_singleton, records_singleton]

theorem text_eq_nil_iff : s.text = [] ↔ s.entries = [] := by
  rw [text, records_eq_nil_iff, List.map_eq_nil_iff]
  constructor
  · intro h
    exact List.perm_nil.1 (h ▸ s.sorted_perm.symm)
  · intro h
    exact List.perm_nil.1 (h ▸ s.sorted_perm)

theorem chars_injective {e e' : String × String} (h : chars e = chars e') : e = e' :=
  Prod.ext (String.toList_injective (congrArg Prod.fst h))
    (String.toList_injective (congrArg Prod.snd h))

/-- The single file that is written as a given record. -/
def ofRecord (r : List Char × List Char) : Sources :=
  fromString (String.ofList r.1) (String.ofList r.2)

theorem text_ofRecord (r : List Char × List Char) : (ofRecord r).text = record ':' '\n' r := by
  rw [text_of_single rfl]
  simp [chars]

/-- A set of sources that is written as one record has no other file. -/
theorem entries_eq_of_unique (hunique : ∀ t : Sources, t.shaInput = s.shaInput → t.Same s)
    {r : List Char × List Char} (hr : s.text = record ':' '\n' r) :
    s.entries = [(String.ofList r.1, String.ofList r.2)] :=
  List.perm_singleton.1 (hunique (ofRecord r)
    (shaInput_eq_iff.2 ((text_ofRecord r).trans hr.symm))).symm

/-- No other set of sources has the same hashed bytes exactly if there is no file, or one file
without a colon in its name and its source. -/
theorem shaInput_unique_iff (s : Sources) :
    (∀ t : Sources, t.shaInput = s.shaInput → t.Same s) ↔
      s.entries = [] ∨ ∃ name source, s.entries = [(name, source)] ∧
        ':' ∉ name.toList ∧ ':' ∉ source.toList := by
  constructor
  · intro hunique
    by_cases hempty : s.entries = []
    · exact .inl hempty
    · have hsorted : s.sorted.map chars ≠ [] := fun h =>
        hempty (text_eq_nil_iff.1 (records_eq_nil_iff.2 h))
      obtain ⟨r, hr⟩ := @exists_record _ ':' '\n' _ hsorted
      have hsingle := entries_eq_of_unique hunique hr
      have hreading : ∀ r', record ':' '\n' r' = record ':' '\n' r → r' = r := by
        intro r' hr'
        have hsame := hsingle.symm.trans (entries_eq_of_unique hunique (hr.trans hr'.symm))
        simp only [List.cons.injEq, Prod.mk.injEq, String.ofList_inj, and_true] at hsame
        exact Prod.ext hsame.1.symm hsame.2.symm
      obtain ⟨hname, hsource⟩ := record_unique_iff.1 hreading
      exact .inr ⟨_, _, hsingle, by simpa using hname, by simpa using hsource⟩
  · rintro (hempty | ⟨name, source, hsingle, hname, hsource⟩) t ht
    · rw [shaInput_eq_iff, text_eq_nil_iff.2 hempty, text_eq_nil_iff] at ht
      exact List.Perm.of_eq (ht.trans hempty.symm)
    · rw [shaInput_eq_iff, text_of_single hsingle] at ht
      have hchars : t.sorted.map chars = [chars (name, source)] :=
        records_eq_record hname hsource ht
      obtain ⟨e, hsorted, he⟩ := List.map_eq_singleton_iff.1 hchars
      obtain rfl := chars_injective he
      exact List.Perm.of_eq ((entries_of_sorted hsorted).trans hsingle.symm)

/-- A colon may end the name or belong to the source. -/
theorem shaInput_collides : ¬ ∀ s t : Sources, ¬s.Same t → s.shaInput ≠ t.shaInput := by
  intro hall
  have hdiffer : ¬(fromString "a" "b:c").Same (fromString "a:b" "c") := by
    intro hsame
    exact absurd (List.singleton_inj.1 (List.perm_singleton.1 hsame)) (by decide)
  refine hall _ _ hdiffer (shaInput_eq_iff.2 ?_)
  rw [text_of_single rfl, text_of_single rfl]
  decide

end Sources

end Tako.Governance
