import Pertexo.Pagination.NextPages

/-!
# Sizes of inline output

The sizes of the items are counted page by page. Added to the size of the output without
items they are the size of the whole output.
-/

namespace Pertexo
namespace Pagination

open Library
open Values
open Canonical

section

variable {Number : Type} [ScriptNumber Number]

/-!
## Items of a page
-/

structure FitsLimits (value : BoundedJsonValue Number) : Prop where
  ordered : value.Ordered
  depth_le : value.depth ≤ nodeExecutionLimits.depth

theorem fitsLimits_of_parsePageBody {body : ByteArray} {value : BoundedJsonValue Number}
    (h : parsePageBody body = some value) : FitsLimits value := by
  unfold parsePageBody at h
  rcases Option.bind_eq_some_iff.mp h with ⟨text, _, h⟩
  rcases Option.bind_eq_some_iff.mp h with ⟨parsed, _, h⟩
  cases hsnapshot : canonicalizeBoundedJson parsed nodeExecutionLimits with
  | error message =>
      rw [hsnapshot] at h
      cases h
  | ok snapshot =>
      rw [hsnapshot] at h
      cases h
      have hinspected := (canonicalizeBoundedJson_eq_ok_iff (by decide)).mp hsnapshot
      have hfits := snapshotFits_of_inspectBoundedJson (by decide) hinspected
      exact ⟨hfits.ordered, hfits.depth⟩

omit [ScriptNumber Number] in
theorem fitsLimits_of_resolveSegment {value found : BoundedJsonValue Number}
    {segment : JsonPathSegment} (hvalue : FitsLimits value)
    (h : resolveSegment value segment = some found) : FitsLimits found := by
  have hdepth := hvalue.depth_le
  unfold resolveSegment at h
  split at h
  · rename_i items n
    have hmem := List.mem_of_getElem? h
    constructor
    · exact orderedItems_iff.mp hvalue.ordered found hmem
    · have := itemsDepth_le_iff.mp (Nat.le_refl (itemsDepth items)) found hmem
      rw [BoundedJsonValue.depth] at hdepth
      omega
  · rename_i members name
    obtain ⟨before, after, hmembers, _⟩ := List.lookup_eq_some_iff.mp h
    have hmem : (name, found) ∈ members := by
      rw [hmembers]
      exact List.mem_append_right before List.mem_cons_self
    constructor
    · exact orderedMembers_iff.mp hvalue.ordered.right _ hmem
    · have := membersDepth_le_iff.mp (Nat.le_refl (membersDepth members)) _ hmem
      rw [BoundedJsonValue.depth] at hdepth
      dsimp only at this
      omega
  · cases h

omit [ScriptNumber Number] in
theorem fitsLimits_of_segments (segments : List JsonPathSegment) :
    forall {value found : BoundedJsonValue Number}, FitsLimits value ->
      segments.foldlM resolveSegment value = some found -> FitsLimits found := by
  induction segments with
  | nil =>
      intro value found hvalue h
      cases h
      exact hvalue
  | cons segment rest ih =>
      intro value found hvalue h
      rw [List.foldlM_cons] at h
      rcases Option.bind_eq_some_iff.mp h with ⟨next, hnext, hfound⟩
      exact ih (fitsLimits_of_resolveSegment hvalue hnext) hfound

/-!
## Sizes of the output
-/

omit [ScriptNumber Number] in
theorem itemsDepth_append (left right : List (BoundedJsonValue Number)) :
    itemsDepth (left ++ right) = max (itemsDepth left) (itemsDepth right) := by
  induction left with
  | nil => rw [List.nil_append, itemsDepth, Nat.zero_max]
  | cons item rest ih => rw [List.cons_append, itemsDepth, itemsDepth, ih, Nat.max_assoc]

theorem textBytes_append (left right : List (BoundedJsonValue Number)) :
    textBytes (.array (left ++ right)) =
      textBytes (.array left) + (textBytes (.array right) - 2) +
        if !left.isEmpty && !right.isEmpty then 1 else 0 := by
  rw [textBytes_array, textBytes_array, textBytes_array, List.map_append, List.sum_append,
    List.length_append]
  cases left with
  | nil =>
      simp only [List.map_nil, List.sum_nil, List.length_nil, List.isEmpty_nil, Bool.not_true,
        Bool.false_and, Bool.false_eq_true, if_false]
      omega
  | cons first rest =>
      cases right with
      | nil => simp
      | cons next others =>
          simp only [List.length_cons, List.isEmpty_cons, Bool.not_false, Bool.and_self, if_true]
          omega

/-- The output grows by what the items take beyond an empty list. -/
theorem textBytes_outputValue (count : Nat -> Number) (items : List (BoundedJsonValue Number))
    (metadata : PageMetadata Number) :
    textBytes (outputValue count items metadata) =
      textBytes (outputValue count [] metadata) + (textBytes (.array items) - 2) := by
  have hempty : textBytes (.array ([] : List (BoundedJsonValue Number))) = 2 := by
    rw [textBytes_array]
    rfl
  have hitems : 2 ≤ textBytes (.array items) := by
    rw [textBytes_array]
    omega
  unfold outputValue
  rw [textBytes_object, textBytes_object]
  simp only [List.map_cons, List.sum_cons, memberBytes, hempty, List.length_cons]
  omega

omit [ScriptNumber Number] in
theorem memberCount_outputValue (count : Nat -> Number) (items : List (BoundedJsonValue Number))
    (metadata : PageMetadata Number) :
    (outputValue count items metadata).memberCount =
      (outputValue count [] metadata).memberCount +
        (BoundedJsonValue.array items).memberCount := by
  unfold outputValue
  simp only [BoundedJsonValue.memberCount, membersCount, List.length_cons, List.length_nil,
    itemsCount]
  omega

omit [ScriptNumber Number] in
theorem depth_outputValue (count : Nat -> Number) (items : List (BoundedJsonValue Number))
    (metadata : PageMetadata Number) :
    (outputValue count items metadata).depth =
      max (outputValue count [] metadata).depth ((BoundedJsonValue.array items).depth + 1) := by
  unfold outputValue
  simp only [BoundedJsonValue.depth, membersDepth, itemsDepth]
  omega

omit [ScriptNumber Number] in
theorem ordered_headersValue (headers : Headers) :
    (headersValue headers : BoundedJsonValue Number).Ordered := by
  constructor
  · have hown := headers.own
    unfold OwnOrder at hown ⊢
    rw [List.pairwise_map] at hown ⊢
    exact hown
  · rw [orderedMembers_iff]
    intro member hmember
    obtain ⟨entry, _, rfl⟩ := List.mem_map.mp hmember
    trivial

omit [ScriptNumber Number] in
theorem ordered_outputValue (count : Nat -> Number) {items : List (BoundedJsonValue Number)}
    (hitems : OrderedItems items) (metadata : PageMetadata Number) :
    (outputValue count items metadata).Ordered := by
  constructor
  · unfold OwnOrder
    simp only [List.pairwise_cons, List.mem_cons, List.not_mem_nil, or_false, forall_eq_or_imp,
      forall_eq, IsEmpty.forall_iff, implies_true, List.Pairwise.nil, and_true]
    decide
  · exact ⟨hitems, trivial, trivial, trivial, ordered_headersValue metadata.headers, trivial,
      trivial⟩

omit [ScriptNumber Number] in
theorem depth_headersValue (headers : Headers) :
    (headersValue headers : BoundedJsonValue Number).depth ≤ 1 := by
  have hmembers : membersDepth (headers.entries.map fun entry =>
      (scriptString entry.fst,
        (.string (scriptString entry.snd) : BoundedJsonValue Number))) ≤ 0 := by
    rw [membersDepth_le_iff]
    intro member hmember
    obtain ⟨entry, _, rfl⟩ := List.mem_map.mp hmember
    exact Nat.le_refl 0
  unfold headersValue
  rw [BoundedJsonValue.depth]
  omega

omit [ScriptNumber Number] in
theorem depth_emptyOutput (count : Nat -> Number) (metadata : PageMetadata Number) :
    (outputValue count [] metadata).depth ≤ 2 := by
  have hheaders : (headersValue metadata.headers : BoundedJsonValue Number).depth ≤ 1 :=
    depth_headersValue metadata.headers
  unfold outputValue
  simp only [BoundedJsonValue.depth, membersDepth, itemsDepth]
  omega

/-- A value is larger than the output of a step may be. -/
def ExceedsLimits (value : BoundedJsonValue Number) : Prop :=
  exists inspection, inspectJsonValue (stored 0 value) = .ok inspection ∧
    (nodeExecutionLimits.bytes < inspection.bytes ∨
      nodeExecutionLimits.members < inspection.members ∨
      nodeExecutionLimits.depth < inspection.depth)

end

section

variable {Url Number Store Failure : Type} [ScriptNumber Number]

structure Tallied (state : PaginationState Number Store) : Prop where
  bytes : textBytes (.array state.items) = state.itemBytes + 2
  members : (BoundedJsonValue.array state.items).memberCount = state.itemMembers
  depth : (BoundedJsonValue.array state.items).depth = state.itemDepth
  fits : FitsLimits (.array state.items)

theorem fitsLimits_array {items : List (BoundedJsonValue Number)}
    (h : FitsLimits (.array items)) :
    inspectJsonValue (stored 0 (.array items)) =
      .ok
        { bytes := textBytes (.array items)
          depth := (BoundedJsonValue.array items).depth
          members := (BoundedJsonValue.array items).memberCount } := by
  have hdepth := h.depth_le
  apply inspectJsonValue_stored h.ordered
  exact Nat.le_trans hdepth (by decide)

theorem inspect_outputValue (count : Nat -> Number) {items : List (BoundedJsonValue Number)}
    (h : FitsLimits (.array items)) (metadata : PageMetadata Number) :
    inspectJsonValue (stored 0 (outputValue count items metadata)) =
      .ok
        { bytes := textBytes (outputValue count items metadata)
          depth := (outputValue count items metadata).depth
          members := (outputValue count items metadata).memberCount } := by
  apply inspectJsonValue_stored (ordered_outputValue count h.ordered metadata)
  have hitems := h.depth_le
  have hempty := depth_emptyOutput count metadata
  have hlimit : nodeExecutionLimits.depth + 1 ≤ canonicalJsonMaxDepth := by decide
  rw [depth_outputValue]
  have htwo : 2 ≤ canonicalJsonMaxDepth := by decide
  omega

omit [ScriptNumber Number] in
theorem fitsLimits_append {left right : List (BoundedJsonValue Number)}
    (hleft : FitsLimits (.array left)) (hright : FitsLimits (.array right)) :
    FitsLimits (.array (left ++ right)) := by
  have hleftDepth := hleft.depth_le
  have hrightDepth := hright.depth_le
  constructor
  · apply orderedItems_iff.mpr
    intro item hitem
    rcases List.mem_append.mp hitem with hitem | hitem
    · exact orderedItems_iff.mp hleft.ordered item hitem
    · exact orderedItems_iff.mp hright.ordered item hitem
  · rw [BoundedJsonValue.depth] at hleftDepth hrightDepth ⊢
    rw [itemsDepth_append]
    omega

omit [ScriptNumber Number] in
theorem fitsLimits_nil : FitsLimits (.array ([] : List (BoundedJsonValue Number))) := by
  constructor
  · trivial
  · show 1 ≤ nodeExecutionLimits.depth
    decide

theorem tallied_startState (input : PaginationInput Url Number Store Failure) (first : Url) :
    Tallied (startState input first) where
  bytes := by
    rw [textBytes_array]
    rfl
  members := rfl
  depth := rfl
  fits := fitsLimits_nil

/-- What a page adds to the counted sizes. -/
def countedState (state : PaginationState Number Store)
    (pageItems : List (BoundedJsonValue Number)) : PaginationState Number Store :=
  { state with
    itemBytes := state.itemBytes + (textBytes (.array pageItems) - 2) +
      if !state.items.isEmpty && !pageItems.isEmpty then 1 else 0
    itemMembers := state.itemMembers + (BoundedJsonValue.array pageItems).memberCount
    itemDepth := max state.itemDepth (BoundedJsonValue.array pageItems).depth }

theorem countItems_inline {input : PaginationInput Url Number Store Failure}
    (hinline : input.pagination.pagesOutput = false) {state : PaginationState Number Store}
    {pageItems : List (BoundedJsonValue Number)} (hitems : FitsLimits (.array pageItems)) :
    countItems input state pageItems = .ok (countedState state pageItems) := by
  unfold countItems addedSizes
  rw [hinline, fitsLimits_array hitems]
  rfl

theorem Tallied.taken {state : PaginationState Number Store} (h : Tallied state)
    {pageItems : List (BoundedJsonValue Number)} (hitems : FitsLimits (.array pageItems)) :
    Tallied { countedState state pageItems with items := state.items ++ pageItems } where
  bytes := by
    have hbytes := h.bytes
    rw [textBytes_append, hbytes]
    show _ = state.itemBytes + (textBytes (.array pageItems) - 2) + _ + 2
    omega
  members := by
    have hmembers := h.members
    rw [BoundedJsonValue.memberCount] at hmembers ⊢
    rw [itemsCount_append, List.length_append]
    show _ = state.itemMembers + (BoundedJsonValue.array pageItems).memberCount
    rw [BoundedJsonValue.memberCount]
    omega
  depth := by
    have hdepth := h.depth
    rw [BoundedJsonValue.depth] at hdepth ⊢
    rw [itemsDepth_append]
    show _ = max state.itemDepth (BoundedJsonValue.array pageItems).depth
    rw [BoundedJsonValue.depth]
    omega
  fits := fitsLimits_append h.fits hitems

/-- The output is refused exactly when it exceeds the limits with the items of the page. -/
theorem outputTooLarge_inline {input : PaginationInput Url Number Store Failure}
    (hinline : input.pagination.pagesOutput = false) {state : PaginationState Number Store}
    (h : Tallied state) {pageItems : List (BoundedJsonValue Number)}
    (hitems : FitsLimits (.array pageItems)) (metadata : PageMetadata Number) :
    exists tooLarge,
      outputTooLarge input (countedState state pageItems) metadata = .ok tooLarge ∧
        (tooLarge = true ↔
          ExceedsLimits (outputValue input.count (state.items ++ pageItems) metadata)) := by
  have htaken := h.taken hitems
  have hbytes := htaken.bytes
  have hmembers := htaken.members
  have hdepth := htaken.depth
  have hfits : FitsLimits (.array (state.items ++ pageItems)) := htaken.fits
  dsimp only at hbytes hmembers hdepth
  have hinspected := inspect_outputValue input.count hfits metadata
  refine ⟨exceedsInlinePageEnvelope
    { bytes := textBytes (outputValue input.count [] metadata)
      depth := (outputValue input.count [] metadata).depth
      members := (outputValue input.count [] metadata).memberCount }
    (countedState state pageItems).itemBytes (countedState state pageItems).itemMembers
    (countedState state pageItems).itemDepth, ?_, ?_⟩
  · unfold outputTooLarge
    rw [inspect_outputValue input.count fitsLimits_nil metadata, hinline]
    rfl
  · unfold ExceedsLimits exceedsInlinePageEnvelope
    rw [Bool.or_eq_true, Bool.or_eq_true, decide_eq_true_iff,
      decide_eq_true_iff, decide_eq_true_iff, or_assoc]
    have hsizes :
        textBytes (outputValue input.count [] metadata) +
            (countedState state pageItems).itemBytes =
          textBytes (outputValue input.count (state.items ++ pageItems) metadata) ∧
        (outputValue input.count [] metadata).memberCount +
            (countedState state pageItems).itemMembers =
          (outputValue input.count (state.items ++ pageItems) metadata).memberCount ∧
        max (outputValue input.count [] metadata).depth
            ((countedState state pageItems).itemDepth + 1) =
          (outputValue input.count (state.items ++ pageItems) metadata).depth := by
      rw [textBytes_outputValue input.count (state.items ++ pageItems),
        memberCount_outputValue input.count (state.items ++ pageItems),
        depth_outputValue input.count (state.items ++ pageItems)]
      omega
    dsimp only
    rw [hsizes.left, hsizes.right.left, hsizes.right.right]
    constructor
    · intro hexceeds
      exact ⟨_, hinspected, hexceeds⟩
    · rintro ⟨inspection, hinspection, hexceeds⟩
      rw [hinspected] at hinspection
      cases hinspection
      exact hexceeds

end

end Pagination
end Pertexo
