import Mathlib.Data.List.Nodup
import Mathlib.Data.List.Induction
import Tako.Providers.Stream.Bedrock

/-!
# The indices of Bedrock's tool calls

`map_event` gives each content block an index of its own when it first sees it, the number of the
blocks before it. A start of a known block gives the block another index, although the map is there
to keep one (`indexLaw_iff`).
-/

namespace Tako.Providers.Bedrock

/-- The block of an event that has to have an index: a start, or a fragment of a tool's input. -/
def Event.allocates : Event → Option Int32
  | .contentBlockStart block _ | .contentBlockDelta block (some (.toolUse _)) => some block
  | _ => none

/-- The event starts the block. -/
def Event.Starts (block : Int32) : Event → Prop
  | .contentBlockStart block' _ => block' = block
  | _ => False

/-- The block of an event with a delta of a tool call. -/
def Event.toolBlock : Event → Option Int32
  | .contentBlockStart block (some (.toolUse _ _))
  | .contentBlockDelta block (some (.toolUse _)) => some block
  | _ => none

/-- The blocks in the order in which they are first seen. -/
def see (seen : List Int32) (event : Event) : List Int32 :=
  match event.allocates with
  | some block => if block ∈ seen then seen else seen ++ [block]
  | none => seen

def blocks (events : List Event) : List Int32 := events.foldl see []

def stateAfter (events : List Event) : ToolCallState :=
  events.foldl (fun state event => (mapEvent state event).state) []

/-- The indices in a chunk. -/
def indices : ChatChunk → List UInt32
  | .delta _ toolCalls => toolCalls.map (·.index)
  | _ => []

/-- The deltas of tool calls that come of the events, each as its block and its index. -/
def toolDeltas : ToolCallState → List Event → List (Int32 × UInt32)
  | _, [] => []
  | state, event :: events =>
    (event.toolBlock.toList.flatMap fun block =>
      ((mapEvent state event).chunks.flatMap indices).map (block, ·)) ++
      toolDeltas (mapEvent state event).state events

/-- All deltas of a block have one index, that of no other block: its place among the blocks. -/
structure IndexLaw (events : List Event) : Prop where
  same : ∀ block i j, (block, i) ∈ toolDeltas [] events → (block, j) ∈ toolDeltas [] events → i = j
  apart : ∀ block block' i, (block, i) ∈ toolDeltas [] events →
    (block', i) ∈ toolDeltas [] events → block = block'
  inOrder : ∀ block i, (block, i) ∈ toolDeltas [] events →
    i.toNat = (blocks events).idxOf block

/-- The last of all blocks that there can be. -/
def LastOfAll (seen : List Int32) (block : Int32) : Prop :=
  seen.length = UInt32.size ∧ seen.idxOf block + 1 = UInt32.size

/-- The block was last started when it had been seen already. The last of all blocks keeps its
index then, since the new one saturates. -/
def StartedAgain (events : List Event) (block : Int32) : Prop :=
  ∃ before start after, events = before ++ .contentBlockStart block start :: after ∧
    (∀ event ∈ after, ¬event.Starts block) ∧ block ∈ blocks before ∧
    ¬LastOfAll (blocks before) block

/-- No delta of a tool call belongs to a block that has been started again. -/
def Steady (events : List Event) : Prop :=
  ∀ before event after block, events = before ++ event :: after → event.toolBlock = some block →
    ¬StartedAgain (before ++ [event]) block

/-! ## The map -/

variable {state : ToolCallState} {block block' : Int32} {index : UInt32} {event : Event}
  {events : List Event} {seen : List Int32}

theorem insert_of_mem (h : block ∈ state.map Prod.fst) (index : UInt32) :
    insert state block index = state.map fun e => if e.1 = block then (block, index) else e := by
  obtain ⟨e, he, hblock⟩ := List.mem_map.mp h
  have hany : state.any (·.1 = block) = true :=
    List.any_eq_true.mpr ⟨e, he, decide_eq_true hblock⟩
  rw [insert, hany, if_pos rfl]

theorem insert_of_notMem (h : block ∉ state.map Prod.fst) (index : UInt32) :
    insert state block index = state ++ [(block, index)] := by
  have hany : state.any (·.1 = block) = false := by
    refine List.any_eq_false.mpr fun e he hblock => h ?_
    exact List.mem_map.mpr ⟨e, he, of_decide_eq_true hblock⟩
  rw [insert, hany, if_neg Bool.false_ne_true]

theorem keys_insert (state : ToolCallState) (block : Int32) (index : UInt32) :
    (insert state block index).map Prod.fst =
      if block ∈ state.map Prod.fst then state.map Prod.fst
      else state.map Prod.fst ++ [block] := by
  by_cases h : block ∈ state.map Prod.fst
  · rw [if_pos h, insert_of_mem h, List.map_map]
    refine List.map_congr_left fun e _ => ?_
    rw [Function.comp_apply]
    split
    · next he => exact he.symm
    · rfl
  · rw [if_neg h, insert_of_notMem h, List.map_append, List.map_singleton]

theorem lookup_eq_none_iff : state.lookup block = none ↔ block ∉ state.map Prod.fst := by
  rw [List.lookup_eq_none_iff, List.mem_map]
  constructor
  · rintro h ⟨e, he, rfl⟩
    exact absurd (h e he) (by simp)
  · intro h e he
    exact bne_iff_ne.mpr fun heq => h ⟨e, he, heq.symm⟩

theorem lookup_insert_self (state : ToolCallState) (block : Int32) (index : UInt32) :
    (insert state block index).lookup block = some index := by
  by_cases h : block ∈ state.map Prod.fst
  · rw [insert_of_mem h]
    induction state with
    | nil => cases h
    | cons e state ih =>
      rw [List.map_cons]
      split
      · exact List.lookup_cons_self
      · next he =>
        have hne : (block == e.1) = false := beq_false_of_ne (Ne.symm he)
        rw [List.map_cons, List.mem_cons] at h
        rw [List.lookup_cons, hne]
        exact ih (h.resolve_left (Ne.symm he))
  · rw [insert_of_notMem h, List.lookup_append, lookup_eq_none_iff.mpr h, Option.none_or]
    exact List.lookup_cons_self

theorem lookup_insert_of_ne (h : block' ≠ block) (state : ToolCallState) (index : UInt32) :
    (insert state block index).lookup block' = state.lookup block' := by
  have hne : (block' == block) = false := beq_false_of_ne h
  by_cases hmem : block ∈ state.map Prod.fst
  · rw [insert_of_mem hmem]
    clear hmem
    induction state with
    | nil => rfl
    | cons e state ih =>
      rw [List.map_cons]
      split
      · next he => rw [List.lookup_cons, List.lookup_cons, he, hne, ih]
      · rw [List.lookup_cons, List.lookup_cons, ih]
  · rw [insert_of_notMem hmem, List.lookup_append, List.lookup_cons, hne, List.lookup_nil,
      Option.or_none]

theorem toNat_nextIndex (state : ToolCallState) :
    (nextIndex state).toNat = if state.length < UInt32.size then state.length else 4294967295 := by
  rw [nextIndex]
  split
  · next h => exact UInt32.toNat_ofNat_of_lt' h
  · rfl

/-- There are no more distinct blocks than numbers of blocks. -/
theorem length_le_size (h : seen.Nodup) : seen.length ≤ UInt32.size := by
  have hnodup : (seen.map fun block => block.toUInt32.toNat).Nodup :=
    List.Pairwise.map _ (fun a b hne hab => hne <| by
      have heq : a.toUInt32 = b.toUInt32 := UInt32.toNat_inj.mp hab
      rw [← Int32.toInt32_toUInt32 a, heq, Int32.toInt32_toUInt32]) h
  have hsub : (seen.map fun block => block.toUInt32.toNat) ⊆ List.range UInt32.size := by
    intro k hk
    obtain ⟨block, -, rfl⟩ := List.mem_map.mp hk
    exact List.mem_range.mpr block.toUInt32.toNat_lt
  have hlength := hnodup.length_le_of_subset hsub
  rwa [List.length_map, List.length_range] at hlength

/-- A fragment for a block that has an index, and for one that has none. -/
theorem mapEvent_toolUse_of_some {i : UInt32} (h : state.lookup block = some i) (input : String) :
    (mapEvent state (.contentBlockDelta block (some (.toolUse input)))).state = state := by
  rw [mapEvent]
  dsimp only
  rw [h, Option.isSome_some, if_pos rfl]

theorem mapEvent_toolUse_of_none (h : state.lookup block = none) (input : String) :
    (mapEvent state (.contentBlockDelta block (some (.toolUse input)))).state =
      insert state block (nextIndex state) := by
  rw [mapEvent]
  dsimp only
  rw [h, Option.isSome_none, if_neg Bool.false_ne_true, Option.getD_none]

theorem mapEvent_start (state : ToolCallState) (block : Int32)
    (start : Option ContentBlockStart) :
    (mapEvent state (.contentBlockStart block start)).state =
      insert state block (nextIndex state) := by
  match start with
  | none | some .other | some (.toolUse _ _) => rfl

theorem mapEvent_keys (state : ToolCallState) (event : Event) :
    (mapEvent state event).state.map Prod.fst = see (state.map Prod.fst) event := by
  cases event with
  | messageStart | contentBlockStop | unknown | messageStop | metadata => rfl
  | contentBlockStart block start =>
    rw [mapEvent_start, keys_insert]
    rfl
  | contentBlockDelta block delta =>
    match delta with
    | none | some .other | some (.text _) => rfl
    | some (.toolUse input) =>
      change _ = if block ∈ state.map Prod.fst then _ else _
      cases h : state.lookup block with
      | none =>
        rw [mapEvent_toolUse_of_none h, keys_insert]
      | some i =>
        have hmem : block ∈ state.map Prod.fst := by
          by_contra hnot
          rw [lookup_eq_none_iff.mpr hnot] at h
          cases h
        rw [mapEvent_toolUse_of_some h, if_pos hmem]

theorem mapEvent_new (h : event.allocates = some block) (hnone : state.lookup block = none) :
    (mapEvent state event).state = insert state block (nextIndex state) := by
  cases event with
  | messageStart | contentBlockStop | unknown | messageStop | metadata => cases h
  | contentBlockStart block' start =>
    cases h
    exact mapEvent_start ..
  | contentBlockDelta block' delta =>
    match delta with
    | none | some .other | some (.text _) => cases h
    | some (.toolUse input) =>
      cases h
      exact mapEvent_toolUse_of_none hnone input

/-- The delta of a block has the index that the map has for it then. -/
theorem mapEvent_indices (state : ToolCallState) (h : event.toolBlock = some block) :
    (mapEvent state event).chunks.flatMap indices =
      ((mapEvent state event).state.lookup block).toList := by
  cases event with
  | messageStart | contentBlockStop | unknown | messageStop | metadata => cases h
  | contentBlockStart block' start =>
    match start with
    | none | some .other => cases h
    | some (.toolUse _ _) =>
      cases h
      rw [mapEvent_start, lookup_insert_self]
      rfl
  | contentBlockDelta block' delta =>
    match delta with
    | none | some .other | some (.text _) => cases h
    | some (.toolUse input) =>
      cases h
      cases hlookup : state.lookup block with
      | none =>
        rw [mapEvent_toolUse_of_none hlookup, lookup_insert_self, mapEvent]
        dsimp only
        rw [hlookup]
        rfl
      | some i =>
        rw [mapEvent_toolUse_of_some hlookup, hlookup, mapEvent]
        dsimp only
        rw [hlookup]
        rfl

/-- Only a start moves the index of a block that has one. -/
theorem mapEvent_lookup {i : UInt32} (h : state.lookup block = some i)
    (hstart : ¬event.Starts block) :
    (mapEvent state event).state.lookup block = some i := by
  cases event with
  | messageStart | contentBlockStop | unknown | messageStop | metadata => exact h
  | contentBlockStart block' start =>
    rw [mapEvent_start, lookup_insert_of_ne (Ne.symm hstart)]
    exact h
  | contentBlockDelta block' delta =>
    match delta with
    | none | some .other | some (.text _) => exact h
    | some (.toolUse input) =>
      cases hlookup : state.lookup block' with
      | none =>
        have hne : block ≠ block' := by
          rintro rfl
          rw [h] at hlookup
          cases hlookup
        rw [mapEvent_toolUse_of_none hlookup, lookup_insert_of_ne hne, h]
      | some i' => rw [mapEvent_toolUse_of_some hlookup, h]

/-! ## The blocks -/

theorem blocks_append_singleton (events : List Event) (event : Event) :
    blocks (events ++ [event]) = see (blocks events) event := List.foldl_concat ..

theorem stateAfter_append_singleton (events : List Event) (event : Event) :
    stateAfter (events ++ [event]) = (mapEvent (stateAfter events) event).state :=
  List.foldl_concat ..

theorem keys_stateAfter (events : List Event) :
    (stateAfter events).map Prod.fst = blocks events := by
  induction events using List.reverseRec with
  | nil => rfl
  | append_singleton events event ih =>
    rw [stateAfter_append_singleton, mapEvent_keys, ih, blocks_append_singleton]

theorem see_eq_or (seen : List Int32) (event : Event) :
    see seen event = seen ∨ ∃ block, event.allocates = some block ∧ block ∉ seen ∧
      see seen event = seen ++ [block] := by
  unfold see
  split
  · next block h =>
    split
    · exact .inl rfl
    · next hnot => exact .inr ⟨block, h, hnot, rfl⟩
  · exact .inl rfl

theorem nodup_blocks (events : List Event) : (blocks events).Nodup := by
  induction events using List.reverseRec with
  | nil => exact .nil
  | append_singleton events event ih =>
    rw [blocks_append_singleton]
    rcases see_eq_or (blocks events) event with h | ⟨block, -, hnot, h⟩
    · rwa [h]
    · rw [h]
      exact List.nodup_append.mpr ⟨ih, List.nodup_singleton _, by
        rintro a ha _ hb rfl
        exact hnot (List.mem_singleton.mp hb ▸ ha)⟩

theorem blocks_prefix_append (events rest : List Event) :
    blocks events <+: blocks (events ++ rest) := by
  induction rest using List.reverseRec with
  | nil => exact ⟨[], by rw [List.append_nil, List.append_nil]⟩
  | append_singleton rest event ih =>
    rw [← List.append_assoc, blocks_append_singleton]
    refine ih.trans ?_
    rcases see_eq_or (blocks (events ++ rest)) event with h | ⟨block, -, -, h⟩
    · exact ⟨[], by rw [List.append_nil, h]⟩
    · exact ⟨[block], h.symm⟩

theorem idxOf_blocks (h : block ∈ blocks events) (rest : List Event) :
    (blocks (events ++ rest)).idxOf block = (blocks events).idxOf block := by
  obtain ⟨later, hlater⟩ := blocks_prefix_append events rest
  rw [← hlater, List.idxOf_append_of_mem h]

theorem mem_blocks_of_allocates (h : event.allocates = some block) (events : List Event) :
    block ∈ blocks (events ++ [event]) := by
  rw [blocks_append_singleton, see, h]
  dsimp only
  split
  · assumption
  · exact List.mem_append_right _ (List.mem_singleton_self block)

/-- A block that is seen with the next event only. -/
theorem blocks_of_new (h : event.allocates = some block) (hnot : block ∉ blocks events) :
    blocks (events ++ [event]) = blocks events ++ [block] ∧
      (blocks (events ++ [event])).idxOf block = (blocks events).length ∧
      (nextIndex (stateAfter events)).toNat = (blocks events).length := by
  have hblocks : blocks (events ++ [event]) = blocks events ++ [block] := by
    rw [blocks_append_singleton, see, h]
    exact if_neg hnot
  have hlength := length_le_size (nodup_blocks (events ++ [event]))
  rw [hblocks, List.length_append, List.length_singleton] at hlength
  refine ⟨hblocks, ?_, ?_⟩
  · rw [hblocks, List.idxOf_append_of_notMem hnot, List.idxOf_cons_self, Nat.add_zero]
  · rw [toNat_nextIndex, ← keys_stateAfter, List.length_map]
    rw [← keys_stateAfter, List.length_map] at hlength
    exact if_pos hlength

/-! ## Starts -/

theorem not_startedAgain_of_notMem (h : block ∉ blocks events) : ¬StartedAgain events block := by
  rintro ⟨before, start, after, rfl, -, hmem, -⟩
  exact h ((blocks_prefix_append before _).subset hmem)

theorem startedAgain_start (events : List Event) (block : Int32)
    (start : Option ContentBlockStart) :
    StartedAgain (events ++ [.contentBlockStart block start]) block ↔
      block ∈ blocks events ∧ ¬LastOfAll (blocks events) block := by
  constructor
  · rintro ⟨before, start', after, heq, hafter, hmem, hlast⟩
    rcases List.eq_nil_or_concat after with rfl | ⟨after, event, rfl⟩
    · obtain ⟨rfl, -⟩ := List.append_inj' heq rfl
      exact ⟨hmem, hlast⟩
    · rw [List.concat_eq_append] at heq hafter
      rw [← List.cons_append, ← List.append_assoc] at heq
      obtain ⟨-, hevent⟩ := List.append_inj' heq rfl
      cases hevent
      exact absurd rfl (hafter _ (List.mem_append_right _ (List.mem_singleton_self _)))
  · rintro ⟨hmem, hlast⟩
    exact ⟨events, start, [], rfl, fun _ h => (nomatch h), hmem, hlast⟩

theorem startedAgain_of_not_starts (h : ¬event.Starts block) :
    StartedAgain (events ++ [event]) block ↔ StartedAgain events block := by
  constructor
  · rintro ⟨before, start, after, heq, hafter, hagain⟩
    rcases List.eq_nil_or_concat after with rfl | ⟨after, event', rfl⟩
    · obtain ⟨-, hevent⟩ := List.append_inj' heq rfl
      cases hevent
      exact absurd rfl h
    · rw [List.concat_eq_append] at heq hafter
      rw [← List.cons_append, ← List.append_assoc] at heq
      obtain ⟨rfl, -⟩ := List.append_inj' heq rfl
      exact ⟨before, start, after, rfl, fun e he => hafter e (List.mem_append_left _ he), hagain⟩
  · rintro ⟨before, start, after, rfl, hafter, hagain⟩
    refine ⟨before, start, after ++ [event], ?_, fun e he => ?_, hagain⟩
    · rw [List.append_assoc, List.cons_append]
    · rcases List.mem_append.mp he with he | he
      · exact hafter e he
      · rwa [List.mem_singleton.mp he]

/-- After a start of a block that has been seen, its index is its place for the last of all blocks
only. -/
theorem nextIndex_eq_iff (h : block ∈ blocks events) :
    (nextIndex (stateAfter events)).toNat = (blocks events).idxOf block ↔
      LastOfAll (blocks events) block := by
  have hlength : (stateAfter events).length = (blocks events).length := by
    rw [← keys_stateAfter, List.length_map]
  have hle := length_le_size (nodup_blocks events)
  have hlt := List.idxOf_lt_length_of_mem h
  have hsize : UInt32.size = 4294967296 := rfl
  rw [toNat_nextIndex, hlength, LastOfAll]
  split <;> omega

/-- The index of a block is its place unless it has been started again. -/
theorem lookup_stateAfter (h : block ∈ blocks events) :
    ∃ i, (stateAfter events).lookup block = some i ∧
      (i.toNat = (blocks events).idxOf block ↔ ¬StartedAgain events block) := by
  induction events using List.reverseRec with
  | nil => cases h
  | append_singleton events event ih =>
    rw [stateAfter_append_singleton]
    by_cases hmem : block ∈ blocks events
    · obtain ⟨i, hlookup, hi⟩ := ih hmem
      rw [idxOf_blocks hmem]
      by_cases hstart : event.Starts block
      · match event, hstart with
        | .contentBlockStart _ start, rfl =>
          refine ⟨_, (mapEvent_start ..).symm ▸ lookup_insert_self .., ?_⟩
          rw [nextIndex_eq_iff hmem, startedAgain_start, not_and_not_right]
          exact ⟨fun hlast _ => hlast, fun h => h hmem⟩
      · refine ⟨i, mapEvent_lookup hlookup hstart, ?_⟩
        rw [hi, startedAgain_of_not_starts hstart]
    · -- The event is the first one that needs an index for the block.
      have hallocates : event.allocates = some block := by
        rw [blocks_append_singleton] at h
        rcases see_eq_or (blocks events) event with hsee | ⟨block', hallocates, -, hsee⟩
        · exact absurd (hsee ▸ h) hmem
        · rw [hsee] at h
          rw [hallocates, List.mem_singleton.mp ((List.mem_append.mp h).resolve_left hmem)]
      obtain ⟨-, hindex, hnext⟩ := blocks_of_new hallocates hmem
      have hlookup : (stateAfter events).lookup block = none := by
        rw [lookup_eq_none_iff, keys_stateAfter]
        exact hmem
      refine ⟨nextIndex (stateAfter events), ?_, iff_of_true (hnext.trans hindex.symm) ?_⟩
      · rw [mapEvent_new hallocates hlookup, lookup_insert_self]
      · by_cases hstart : event.Starts block
        · match event, hstart with
          | .contentBlockStart _ start, rfl =>
            exact fun hagain => hmem ((startedAgain_start events _ start).mp hagain).1
        · rw [startedAgain_of_not_starts hstart]
          exact not_startedAgain_of_notMem hmem

/-! ## The law -/

theorem toolDeltas_append (state : ToolCallState) (before after : List Event) :
    toolDeltas state (before ++ after) =
      toolDeltas state before ++
        toolDeltas (before.foldl (fun state event => (mapEvent state event).state) state) after := by
  induction before generalizing state with
  | nil => rfl
  | cons event before ih =>
    rw [List.cons_append, toolDeltas, toolDeltas, ih, List.append_assoc]
    rfl

/-- The delta of the last event. -/
theorem mem_toolDeltas_append_singleton {i : UInt32} :
    (block, i) ∈ toolDeltas [] (events ++ [event]) ↔
      (block, i) ∈ toolDeltas [] events ∨ event.toolBlock = some block ∧
        (stateAfter (events ++ [event])).lookup block = some i := by
  rw [toolDeltas_append, List.mem_append, toolDeltas, toolDeltas, List.append_nil]
  refine or_congr_right ?_
  rw [stateAfter_append_singleton, List.mem_flatMap]
  constructor
  · rintro ⟨block', hblock', hmem⟩
    obtain ⟨i', hi', heq⟩ := List.mem_map.mp hmem
    have hblock := Option.mem_toList.mp hblock'
    rw [mapEvent_indices _ hblock] at hi'
    cases heq
    exact ⟨hblock, Option.mem_toList.mp hi'⟩
  · rintro ⟨hblock, hlookup⟩
    refine ⟨block, Option.mem_toList.mpr hblock, List.mem_map_of_mem ?_⟩
    rw [mapEvent_indices _ hblock]
    exact Option.mem_toList.mpr hlookup

/-- The deltas of the events, by where they come. -/
theorem mem_toolDeltas {i : UInt32} :
    (block, i) ∈ toolDeltas [] events ↔
      ∃ before event after, events = before ++ event :: after ∧ event.toolBlock = some block ∧
        (stateAfter (before ++ [event])).lookup block = some i := by
  induction events using List.reverseRec with
  | nil =>
    refine iff_of_false (fun h => by cases h) ?_
    rintro ⟨before, event, after, heq, -⟩
    cases before <;> cases heq
  | append_singleton events event ih =>
    rw [mem_toolDeltas_append_singleton, ih]
    constructor
    · rintro (⟨before, event', after, rfl, hdelta⟩ | hdelta)
      · exact ⟨before, event', after ++ [event], List.append_assoc .., hdelta⟩
      · exact ⟨events, event, [], rfl, hdelta⟩
    · rintro ⟨before, event', after, heq, hdelta⟩
      rcases List.eq_nil_or_concat after with rfl | ⟨after, last, rfl⟩
      · obtain ⟨rfl, hevent⟩ := List.append_inj' heq rfl
        cases hevent
        exact .inr hdelta
      · rw [List.concat_eq_append, ← List.cons_append, ← List.append_assoc] at heq
        obtain ⟨rfl, -⟩ := List.append_inj' heq rfl
        exact .inl ⟨before, event', after, rfl, hdelta⟩

theorem allocates_of_toolBlock (h : event.toolBlock = some block) :
    event.allocates = some block := by
  cases event with
  | messageStart | contentBlockStop | unknown | messageStop | metadata => cases h
  | contentBlockStart block' start =>
    match start with
    | none | some .other => cases h
    | some (.toolUse _ _) => exact h
  | contentBlockDelta block' delta =>
    match delta with
    | none | some .other | some (.text _) => cases h
    | some (.toolUse input) => exact h

/-- The deltas are in order exactly if no delta belongs to a block that has been started again. -/
theorem inOrder_iff :
    (∀ block i, (block, i) ∈ toolDeltas [] events → i.toNat = (blocks events).idxOf block) ↔
      Steady events := by
  have hplace {before after : List Event} {event : Event} {block : Int32}
      (heq : events = before ++ event :: after) (hblock : event.toolBlock = some block) :
      ∃ i, (stateAfter (before ++ [event])).lookup block = some i ∧
        (i.toNat = (blocks events).idxOf block ↔ ¬StartedAgain (before ++ [event]) block) := by
    have hmem := mem_blocks_of_allocates (allocates_of_toolBlock hblock) before
    obtain ⟨i, hlookup, hi⟩ := lookup_stateAfter hmem
    refine ⟨i, hlookup, ?_⟩
    rw [heq, ← List.singleton_append, ← List.append_assoc, idxOf_blocks hmem]
    exact hi
  constructor
  · intro h before event after block heq hblock
    obtain ⟨i, hlookup, hi⟩ := hplace heq hblock
    exact hi.mp (h block i (mem_toolDeltas.mpr ⟨before, event, after, heq, hblock, hlookup⟩))
  · intro h block i hmem
    obtain ⟨before, event, after, heq, hblock, hlookup⟩ := mem_toolDeltas.mp hmem
    obtain ⟨i', hlookup', hi⟩ := hplace heq hblock
    cases hlookup.symm.trans hlookup'
    exact hi.mpr (h before event after block heq hblock)

theorem mem_blocks_of_mem_toolDeltas {i : UInt32} (h : (block, i) ∈ toolDeltas [] events) :
    block ∈ blocks events := by
  obtain ⟨before, event, after, rfl, hblock, -⟩ := mem_toolDeltas.mp h
  rw [← List.singleton_append, ← List.append_assoc]
  exact (blocks_prefix_append _ after).subset
    (mem_blocks_of_allocates (allocates_of_toolBlock hblock) before)

/-- The law holds exactly if no delta belongs to a block that has been started again. -/
theorem indexLaw_iff (events : List Event) : IndexLaw events ↔ Steady events := by
  constructor
  · intro h
    exact inOrder_iff.mp h.inOrder
  · intro h
    have hinOrder := inOrder_iff.mpr h
    refine ⟨fun block i j hi hj => ?_, fun block block' i hi hi' => ?_, hinOrder⟩
    · exact UInt32.toNat_inj.mp ((hinOrder block i hi).trans (hinOrder block j hj).symm)
    · have heq := (hinOrder block i hi).symm.trans (hinOrder block' i hi')
      exact (List.idxOf_inj (mem_blocks_of_mem_toolDeltas hi)).mp heq

/-- A block that is started twice gets the index of the next one. -/
def startedTwice : List Event :=
  [.contentBlockStart 0 (some (.toolUse "a" "read")),
    .contentBlockStart 0 (some (.toolUse "a" "read")),
    .contentBlockStart 1 (some (.toolUse "b" "write"))]

theorem not_indexLaw_startedTwice : ¬∀ events, IndexLaw events := by
  intro h
  exact absurd ((h startedTwice).apart 0 1 1 (by decide) (by decide)) (by decide)

end Tako.Providers.Bedrock
