import Tako.Orchestrator.Sample
import Tako.Theory.Interleaving

/-!
# Tool calls in pieces

Tool calls whose argument texts are cut into fragments, and the fragments of different calls woven
together: `assemble_tool_calls` finds the calls again.
-/

namespace Tako.Orchestrator

open Interleaving

/-- A tool call whose argument text comes in fragments. Its id and name are in its first delta. -/
structure SplitCall (codec : Codec) where
  index : UInt32
  id : String
  name : String
  args : Json
  first : Option String
  rest : List (Option String)
  spells : Spells codec (String.join ((first :: rest).filterMap fun f => f)) args

namespace SplitCall

variable {codec : Codec}

def deltas (call : SplitCall codec) : List ToolCallDelta :=
  { index := call.index, id := some call.id, name := some call.name,
    argumentsFragment := call.first } ::
      call.rest.map fun f => { index := call.index, argumentsFragment := f }

def call (c : SplitCall codec) : String × String × Json := (c.id, c.name, c.args)

/-- The deltas of an index. -/
def deltasAt (calls : List (SplitCall codec)) (i : UInt32) : List ToolCallDelta :=
  (calls.filter (·.index = i)).flatMap deltas

variable {calls : List (SplitCall codec)}

theorem index_of_mem_deltas {c : SplitCall codec} (hd : d ∈ c.deltas) : d.index = c.index := by
  obtain rfl | hd := List.mem_cons.1 hd
  · rfl
  · obtain ⟨f, -, rfl⟩ := List.mem_map.1 hd
    rfl

theorem filter_index (hasc : calls.Pairwise (·.index < ·.index)) (hc : c ∈ calls) :
    calls.filter (·.index = c.index) = [c] := by
  induction hasc with
  | nil => cases hc
  | @cons c' calls hlt _ ih =>
    obtain rfl | hc := List.mem_cons.1 hc
    · rw [List.filter_cons_of_pos (by simp), List.filter_eq_nil_iff.2]
      exact fun e he => by simpa using (UInt32.ne_of_lt (hlt e he)).symm
    · rw [List.filter_cons_of_neg (by simpa using UInt32.ne_of_lt (hlt c hc)), ih hc]

theorem deltasAt_index (hasc : calls.Pairwise (·.index < ·.index)) (hc : c ∈ calls) :
    deltasAt calls c.index = c.deltas := by
  rw [deltasAt, filter_index hasc hc, List.flatMap_singleton]

theorem filter_deltas (c : SplitCall codec) (i : UInt32) :
    c.deltas.filter (·.index = i) = if c.index = i then c.deltas else [] := by
  by_cases h : c.index = i
  · rw [if_pos h, List.filter_eq_self]
    exact fun d hd => decide_eq_true ((index_of_mem_deltas hd).trans h)
  · rw [if_neg h, List.filter_eq_nil_iff]
    exact fun d hd hi => h ((index_of_mem_deltas hd).symm.trans (of_decide_eq_true hi))

theorem filter_flatMap_deltas (calls : List (SplitCall codec)) (i : UInt32) :
    (calls.flatMap deltas).filter (·.index = i) = deltasAt calls i := by
  induction calls with
  | nil => rfl
  | cons c calls ih =>
    rw [List.flatMap_cons, List.filter_append, filter_deltas, ih]
    unfold deltasAt
    by_cases h : c.index = i
    · rw [if_pos h, List.filter_cons_of_pos (by simpa using h), List.flatMap_cons]
    · rw [if_neg h, List.filter_cons_of_neg (by simpa using h), List.nil_append]

theorem fragments (c : SplitCall codec) : Fragments codec c.deltas c.call where
  id := List.mem_cons_self
  ids d hd i hi := by
    obtain rfl | hd := List.mem_cons.1 hd
    · exact (Option.some.inj hi).symm
    · obtain ⟨f, -, rfl⟩ := List.mem_map.1 hd
      cases hi
  name := List.mem_cons_self
  names d hd n hn := by
    obtain rfl | hd := List.mem_cons.1 hd
    · exact (Option.some.inj hn).symm
    · obtain ⟨f, -, rfl⟩ := List.mem_map.1 hd
      cases hn
  args := by
    have hfragments : c.deltas.filterMap (·.argumentsFragment) =
        (c.first :: c.rest).filterMap fun f => f := by
      rw [deltas, List.filterMap_cons, List.filterMap_map, List.filterMap_cons]
      rfl
    rw [hfragments]
    exact c.spells

theorem fragmentsOf (hasc : calls.Pairwise (·.index < ·.index))
    (h : Woven (deltasAt calls) ds) : FragmentsOf codec ds (calls.map call) := by
  have hkey : ∀ i, ∀ d ∈ deltasAt calls i, d.index = i := by
    intro i d hd
    obtain ⟨c, hc, hd⟩ := List.mem_flatMap.1 hd
    rw [index_of_mem_deltas hd]
    exact of_decide_eq_true (List.mem_filter.1 hc).2
  refine ⟨calls.map (·.index), List.pairwise_map.2 hasc, fun d hd => ?_, ?_⟩
  · obtain ⟨c, hc, hdc⟩ := List.mem_flatMap.1 (h.mem hkey d hd)
    exact List.mem_map.2 ⟨c, (List.mem_filter.1 hc).1, (index_of_mem_deltas hdc).symm⟩
  · rw [List.forall₂_map_left_iff, List.forall₂_map_right_iff, List.forall₂_same]
    intro c hc
    rw [h.filter_eq hkey, deltasAt_index hasc hc]
    exact c.fragments

end SplitCall

/-- However argument texts are cut into fragments, and the fragments of different calls are woven
together, the calls are assembled again, in the order of their indices. -/
theorem assembleToolCalls_woven (codec : Codec) {calls : List (SplitCall codec)}
    (hasc : calls.Pairwise (·.index < ·.index)) {ds : List ToolCallDelta}
    (h : Woven (SplitCall.deltasAt calls) ds) :
    assembleToolCalls codec ds = calls.map fun c => .toolCall c.id c.name c.args := by
  rw [assembleToolCalls_of_fragments (SplitCall.fragmentsOf hasc h), List.map_map]
  rfl

/-- The fragments of one call after those of another. -/
theorem assembleToolCalls_flatMap (codec : Codec) {calls : List (SplitCall codec)}
    (hasc : calls.Pairwise (·.index < ·.index)) :
    assembleToolCalls codec (calls.flatMap SplitCall.deltas) =
      calls.map fun c => .toolCall c.id c.name c.args := by
  refine assembleToolCalls_woven codec hasc ?_
  have hfilter : SplitCall.deltasAt calls =
      fun i => (calls.flatMap SplitCall.deltas).filter (·.index = i) :=
    funext fun i => (SplitCall.filter_flatMap_deltas calls i).symm
  rw [hfilter]
  exact woven_filter _ _

/-! ## Two calls -/

namespace Interleaved

/-- A call without arguments, in two fragments. -/
def emptyCall (index : UInt32) (id : String) : SplitCall Sample.codec where
  index
  id
  name := "rm"
  args := .object []
  first := some "\x7b"
  rest := [none, some "\x7d"]
  spells := by
    rw [Spells, if_neg (by decide)]
    rfl

def calls : List (SplitCall Sample.codec) := [emptyCall 0 "a", emptyCall 2 "b"]

/-- The fragments of the two calls in turns, those of the second first. -/
def deltas : List ToolCallDelta :=
  (List.zipWith (fun d e => [d, e]) (emptyCall 2 "b").deltas (emptyCall 0 "a").deltas).flatten

theorem assembleToolCalls_in_turns : assembleToolCalls Sample.codec deltas =
    [.toolCall "a" "rm" (.object []), .toolCall "b" "rm" (.object [])] := by
  have hasc : calls.Pairwise (·.index < ·.index) := by decide
  have hwoven : Woven (SplitCall.deltasAt calls) deltas := by
    refine .cons 2 rfl (.cons 0 rfl (.cons 2 rfl (.cons 0 rfl (.cons 2 rfl (.cons 0 rfl
      (.nil fun i => ?_))))))
    by_cases h0 : i = 0
    · subst h0
      rfl
    · by_cases h2 : i = 2
      · subst h2
        rfl
      · simp [h0, h2, SplitCall.deltasAt, calls, emptyCall, Ne.symm h0, Ne.symm h2]
  exact assembleToolCalls_woven Sample.codec hasc hwoven

end Interleaved

end Tako.Orchestrator
