import Mathlib.Data.List.Forall2
import Mathlib.Data.List.Nodup
import Tako.Theory.SortedMap
import Tako.Orchestrator.Basic

/-!
# Reassembling streamed tool calls

`assemble_tool_calls` (`tako-orchestrator/src/single.rs`): deltas are collected by their index in a
`BTreeMap` and become tool calls in index order.
-/

namespace Tako.Orchestrator

/-- What has been received of one tool call. -/
structure PartialCall where
  id : Option String := none
  name : Option String := none
  args : String := ""
  deriving DecidableEq

namespace PartialCall

/-- One more delta: a later id or name replaces an earlier one, a fragment is appended. -/
def receive (p : PartialCall) (d : ToolCallDelta) : PartialCall where
  id := d.id.or p.id
  name := d.name.or p.name
  args := p.args ++ d.argumentsFragment.getD ""

/-- The finished call. One without id or name is dropped; arguments that do not parse are empty. -/
def finish (codec : Codec) (p : PartialCall) : Option ContentPart := do
  let id ← p.id
  let name ← p.name
  let args := if p.args = "" then .object [] else (codec.jsonFromStr p.args).getD (.object [])
  some (.toolCall id name args)

end PartialCall

/-- The `BTreeMap` after one more delta. -/
def insertDelta (acc : List (UInt32 × PartialCall)) (d : ToolCallDelta) :
    List (UInt32 × PartialCall) :=
  SortedMap.upsert d.index {} (·.receive d) acc

def assembleToolCalls (codec : Codec) (deltas : List ToolCallDelta) : List ContentPart :=
  (deltas.foldl insertDelta []).filterMap fun e => e.2.finish codec

/-! ## Fragments of tool calls -/

def toolCallPart (call : String × String × Json) : ContentPart :=
  .toolCall call.1 call.2.1 call.2.2

/-- The arguments that a text stands for. -/
def Spells (codec : Codec) (text : String) (args : Json) : Prop :=
  if text = "" then args = .object [] else codec.jsonFromStr text = some args

/-- The deltas of one index are fragments of the call: its id and name occur in them and no others,
and the argument fragments join to a text of its arguments. -/
structure Fragments (codec : Codec) (ds : List ToolCallDelta) (call : String × String × Json) :
    Prop where
  id : some call.1 ∈ ds.map (·.id)
  ids : ∀ d ∈ ds, ∀ i ∈ d.id, i = call.1
  name : some call.2.1 ∈ ds.map (·.name)
  names : ∀ d ∈ ds, ∀ n ∈ d.name, n = call.2.1
  args : Spells codec (String.join (ds.filterMap (·.argumentsFragment))) call.2.2

/-- The deltas are fragments of the calls, in any interleaving, with indices in call order. -/
def FragmentsOf (codec : Codec) (ds : List ToolCallDelta) (calls : List (String × String × Json)) :
    Prop :=
  ∃ indices : List UInt32, indices.Pairwise (· < ·) ∧ (∀ d ∈ ds, d.index ∈ indices) ∧
    List.Forall₂ (fun i call => Fragments codec (ds.filter (·.index = i)) call) indices calls

namespace PartialCall

theorem foldl_receive (ds : List ToolCallDelta) (p : PartialCall) :
    ds.foldl receive p = {
      id := (ds.reverse.findSome? (·.id)).or p.id
      name := (ds.reverse.findSome? (·.name)).or p.name
      args := p.args ++ String.join (ds.filterMap (·.argumentsFragment)) } := by
  induction ds using List.reverseRecOn with
  | nil => simp
  | append_singleton ds d ih =>
    rw [List.foldl_append, List.foldl_cons, List.foldl_nil, ih, List.reverse_append]
    simp only [receive, List.reverse_singleton, List.singleton_append, List.findSome?_cons,
      List.filterMap_append, String.join_append, mk.injEq]
    refine ⟨?_, ?_, ?_⟩
    · cases d.id <;> rfl
    · cases d.name <;> rfl
    · cases h : d.argumentsFragment <;> simp [h, String.append_assoc]

end PartialCall

theorem findSome?_reverse {ds : List α} {f : α → Option β} (h : some b ∈ ds.map f)
    (hall : ∀ d ∈ ds, ∀ b' ∈ f d, b' = b) : ds.reverse.findSome? f = some b := by
  obtain ⟨d, hd, hb⟩ := List.mem_map.1 h
  cases hf : ds.reverse.findSome? f with
  | none =>
    rw [List.findSome?_eq_none_iff] at hf
    rw [hf d (List.mem_reverse.2 hd)] at hb
    cases hb
  | some b' =>
    obtain ⟨d', hd', hb'⟩ := List.exists_of_findSome?_eq_some hf
    rw [hall d' (List.mem_reverse.1 hd') b' hb']

/-- The deltas of one index are pieces of a call with an argument text: its id and name occur in
them and no others, and the argument fragments join to the text. -/
structure Pieces (ds : List ToolCallDelta) (call : String × String × String) : Prop where
  id : some call.1 ∈ ds.map (·.id)
  ids : ∀ d ∈ ds, ∀ i ∈ d.id, i = call.1
  name : some call.2.1 ∈ ds.map (·.name)
  names : ∀ d ∈ ds, ∀ n ∈ d.name, n = call.2.1
  text : String.join (ds.filterMap (·.argumentsFragment)) = call.2.2

/-- The arguments that a text is assembled to. -/
def assembledArgs (codec : Codec) (text : String) : Json :=
  if text = "" then .object [] else (codec.jsonFromStr text).getD (.object [])

theorem Pieces.finish (h : Pieces ds call) :
    (ds.foldl PartialCall.receive {}).finish codec =
      some (.toolCall call.1 call.2.1 (assembledArgs codec call.2.2)) := by
  rw [PartialCall.foldl_receive, findSome?_reverse h.id h.ids, findSome?_reverse h.name h.names,
    h.text]
  simp [PartialCall.finish, assembledArgs]

theorem Pieces.exists_mem (h : Pieces ds call) : ∃ d, d ∈ ds := by
  obtain ⟨d, hd, -⟩ := List.mem_map.1 h.id
  exact ⟨d, hd⟩

theorem Spells.assembledArgs_eq (h : Spells codec text args) : assembledArgs codec text = args := by
  unfold Spells at h
  unfold assembledArgs
  split at h
  · next htext => rw [if_pos htext, h]
  · next htext => rw [if_neg htext, h, Option.getD_some]

theorem Fragments.pieces (h : Fragments codec ds call) :
    Pieces ds (call.1, call.2.1, String.join (ds.filterMap (·.argumentsFragment))) :=
  ⟨h.id, h.ids, h.name, h.names, rfl⟩

section
variable {γ : Type} {R : List ToolCallDelta → γ → Prop} {part : γ → ContentPart}
  {calls : List γ} {indices : List UInt32} {ds : UInt32 → List ToolCallDelta}

theorem exists_mem_of_forall₂ (hR : ∀ ds call, R ds call → ∃ d, d ∈ ds)
    (h : List.Forall₂ (fun i call => R (ds i) call) indices calls) (hk : k ∈ indices) :
    ∃ d, d ∈ ds k := by
  induction h with
  | nil => cases hk
  | cons hcall _ ih =>
    rcases List.mem_cons.1 hk with rfl | hk
    · exact hR _ _ hcall
    · exact ih hk

theorem finish_of_forall₂
    (hR : ∀ ds call, R ds call → (ds.foldl PartialCall.receive {}).finish codec = some (part call))
    (h : List.Forall₂ (fun i call => R (ds i) call) indices calls) :
    indices.filterMap (fun i => ((ds i).foldl PartialCall.receive {}).finish codec) =
      calls.map part := by
  induction h with
  | nil => rfl
  | cons hcall _ ih => simp only [List.filterMap_cons, hR _ _ hcall, ih, List.map_cons]

/-- Deltas in any interleaving, with indices in call order, are assembled to the calls that the
deltas of each index finish. -/
theorem assembleToolCalls_of_forall₂ {ds : List ToolCallDelta} (hsorted : indices.Pairwise (· < ·))
    (hmem : ∀ d ∈ ds, d.index ∈ indices) (hne : ∀ ds call, R ds call → ∃ d, d ∈ ds)
    (hR : ∀ ds call, R ds call → (ds.foldl PartialCall.receive {}).finish codec = some (part call))
    (hcalls : List.Forall₂ (fun i call => R (ds.filter (·.index = i)) call) indices calls) :
    assembleToolCalls codec ds = calls.map part := by
  have hacc : ds.foldl insertDelta [] =
      indices.map fun i => (i, (ds.filter (·.index = i)).foldl PartialCall.receive {}) := by
    refine SortedMap.ext_lookup (SortedMap.sorted_foldl_upsert _ _ _ _) ?_ fun k => ?_
    · exact List.pairwise_map.2 hsorted
    · rw [SortedMap.lookup_map]
      refine (SortedMap.lookup_foldl_upsert _ _ _ _ _).trans ?_
      refine if_congr ⟨?_, fun hk => ?_⟩ rfl rfl
      · rintro ⟨d, hd, rfl⟩
        exact hmem d hd
      · obtain ⟨d, hd⟩ := exists_mem_of_forall₂ hne hcalls hk
        exact ⟨d, List.mem_of_mem_filter hd, by simpa using List.of_mem_filter hd⟩
  rw [assembleToolCalls, hacc, List.filterMap_map]
  exact finish_of_forall₂ hR hcalls

end

/-- Fragments are assembled to the calls that they are fragments of. -/
theorem assembleToolCalls_of_fragments (h : FragmentsOf codec ds calls) :
    assembleToolCalls codec ds = calls.map toolCallPart := by
  obtain ⟨indices, hsorted, hmem, hcalls⟩ := h
  refine assembleToolCalls_of_forall₂ hsorted hmem (fun _ _ h => h.pieces.exists_mem)
    (fun ds call h => ?_) hcalls
  rw [h.pieces.finish, h.args.assembledArgs_eq, toolCallPart]

/-- Whole calls, each under an index of its own, are assembled in the order of their indices. -/
theorem assembleToolCalls_of_perm {γ : Type} {delta : γ → ToolCallDelta} {part : γ → ContentPart}
    {calls calls' : List γ}
    (hfinish : ∀ c, (PartialCall.receive {} (delta c)).finish codec = some (part c))
    (hperm : calls'.Perm calls)
    (hsorted : calls'.Pairwise fun c c' => (delta c).index < (delta c').index) :
    assembleToolCalls codec (calls.map delta) = calls'.map part := by
  have hown : ∀ c ∈ calls',
      (calls'.map delta).filter (·.index = (delta c).index) = [delta c] := by
    intro c hc
    clear hperm
    induction hsorted with
    | nil => cases hc
    | @cons c' calls' hlt _ ih =>
      rw [List.map_cons]
      obtain rfl | hc := List.mem_cons.1 hc
      · rw [List.filter_cons_of_pos (by simp), List.filter_eq_nil_iff.2]
        intro d hd
        obtain ⟨e, he, rfl⟩ := List.mem_map.1 hd
        simpa using (UInt32.ne_of_lt (hlt e he)).symm
      · rw [List.filter_cons_of_neg (by simpa using UInt32.ne_of_lt (hlt c hc)), ih hc]
  have hindices : (calls'.map fun c => (delta c).index).Pairwise (· < ·) :=
    List.pairwise_map.2 hsorted
  refine assembleToolCalls_of_forall₂ (R := fun ds c => ds = [delta c]) hindices ?_ ?_ ?_ ?_
  · intro d hd
    obtain ⟨c, hc, rfl⟩ := List.mem_map.1 hd
    exact List.mem_map.2 ⟨c, hperm.mem_iff.2 hc, rfl⟩
  · rintro _ c rfl
    exact ⟨delta c, List.mem_cons_self⟩
  · rintro _ c rfl
    exact hfinish c
  · rw [List.forall₂_map_left_iff, List.forall₂_same]
    intro c hc
    have hfilter := ((hperm.map delta).filter (·.index = (delta c).index)).symm
    rw [hown c hc] at hfilter
    exact List.perm_singleton.1 hfilter

/-- Numbers that fit the index are in order as indices. -/
theorem pairwise_zipIdx {γ : Type} {calls : List γ} {before n : Nat}
    (h : before + n + calls.length ≤ UInt32.size) : (calls.zipIdx n).Pairwise fun e e' =>
      UInt32.ofNat (before + e.2) < UInt32.ofNat (before + e'.2) := by
  have hlt : ((calls.zipIdx n).map Prod.snd).Pairwise (· < ·) := by
    rw [List.zipIdx_map_snd]
    exact List.pairwise_lt_range'
  refine (List.pairwise_map.1 hlt).imp_of_mem fun {e e'} he he' hlt => ?_
  have hsize := List.snd_lt_add_of_mem_zipIdx he
  have hsize' := List.snd_lt_add_of_mem_zipIdx he'
  rw [UInt32.lt_iff_toNat_lt, UInt32.toNat_ofNat_of_lt' (by omega),
    UInt32.toNat_ofNat_of_lt' (by omega)]
  omega

/-- No more calls are assembled than there are indices. -/
theorem length_assembleToolCalls_le (codec : Codec) (ds : List ToolCallDelta) :
    (assembleToolCalls codec ds).length ≤ UInt32.size := by
  have hsorted : SortedMap.Sorted (ds.foldl insertDelta []) :=
    SortedMap.sorted_foldl_upsert _ _ _ _
  have hnodup : ((ds.foldl insertDelta []).map fun e => e.1.toNat).Nodup := by
    refine List.Pairwise.map _ (fun a b hlt => ?_) hsorted
    exact Nat.ne_of_lt (UInt32.lt_iff_toNat_lt.1 hlt)
  have hsub : ((ds.foldl insertDelta []).map fun e => e.1.toNat) ⊆ List.range (UInt32.size) := by
    intro k hk
    obtain ⟨e, -, rfl⟩ := List.mem_map.1 hk
    exact List.mem_range.2 e.1.toNat_lt
  have hlength := hnodup.length_le_of_subset hsub
  rw [List.length_map, List.length_range] at hlength
  exact Nat.le_trans (List.length_filterMap_le _ _) hlength

end Tako.Orchestrator
