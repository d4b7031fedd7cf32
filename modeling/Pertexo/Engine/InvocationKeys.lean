import Pertexo.Engine.Ancestors
import Pertexo.Engine.Scheduling
import Pertexo.Library.RunLedger
import Pertexo.Values.Encoding

/-!
# Addresses of invocations

## Scopes and windows of the records
-/

namespace Pertexo
namespace Engine

open Library
open Values

abbrev InvocationScope := StepScope String String BranchScopePart IterationScopePart
abbrev LoopScope := LoopWindow String String BranchScopePart IterationScopePart

def iterationPart (loopNodeId : String) (ordinal : Nat) : IterationScopePart :=
  { loopNodeId := loopNodeId, ordinal := ordinal }

theorem iterationPart_injective : Function.Injective2 iterationPart := by
  intro loopNodeId loopNodeId' ordinal ordinal' h
  injection h with hnode hordinal
  exact ⟨hnode, hordinal⟩

def InvocationState.scope (invocation : InvocationState) : InvocationScope :=
  { key := invocation.invocationKey
    node := invocation.nodeId
    branch := invocation.branchPath.getD []
    path := invocation.iterationPath.getD [] }

def LoopState.window (loop : LoopState) : LoopScope :=
  { key := loop.controlInvocationKey
    node := loop.loopId
    branch := loop.branchPath
    path := loop.iterationPath
    next := loop.nextOrdinal
    active := loop.activeOrdinals }

@[simp] theorem LoopState.window_iteration (loop : LoopState) (ordinal : Nat) :
    loop.window.iteration iterationPart ordinal = loop.iterationScope ordinal := by
  rfl

/-!
## Reading keys back

The key of a step determines the step and the text of its paths. The text of an
iteration path, together with the loops around the step, determines the path.
-/

theorem toList_rawInvocationKey (workflowVersionId nodeId : String) (branchPath : List String)
    (iterationPath : IterationPath) :
    (rawInvocationKey workflowVersionId nodeId branchPath iterationPath).toList =
      (encodeURIComponent workflowVersionId).toList ++ '|' ::
        ((encodeURIComponent nodeId).toList ++ '|' :: 'b' :: ':' ::
          ((encodeURIComponent ("/".intercalate branchPath)).toList ++ '|' :: 'i' :: ':' ::
            (encodeURIComponent
              ("/".intercalate (encodedIterationPath iterationPath))).toList)) := by
  simp [rawInvocationKey, String.toList_append]

theorem texts_of_rawInvocationKey {workflowVersionId nodeId nodeId' : String}
    {branchPath branchPath' : List String} {iterationPath iterationPath' : IterationPath}
    (h : rawInvocationKey workflowVersionId nodeId branchPath iterationPath =
      rawInvocationKey workflowVersionId nodeId' branchPath' iterationPath') :
    nodeId = nodeId' ∧ "/".intercalate branchPath = "/".intercalate branchPath' ∧
      "/".intercalate (encodedIterationPath iterationPath) =
        "/".intercalate (encodedIterationPath iterationPath') := by
  have htext := congrArg String.toList h
  rw [toList_rawInvocationKey, toList_rawInvocationKey] at htext
  have hbar := bar_not_mem_encodeURIComponent
  rcases eq_of_append_separator (hbar _) (hbar _) htext with ⟨_, hscoped⟩
  rcases eq_of_append_separator (hbar _) (hbar _) hscoped with ⟨hnode, hpaths⟩
  rcases eq_of_append_separator (hbar _) (hbar _)
    (List.cons.inj (List.cons.inj hpaths).right).right with ⟨hbranch, hiteration⟩
  refine ⟨?_, ?_, ?_⟩
  · exact encodeURIComponent_injective (String.toList_injective hnode)
  · exact encodeURIComponent_injective (String.toList_injective hbranch)
  · apply encodeURIComponent_injective
    exact String.toList_injective (List.cons.inj (List.cons.inj hiteration).right).right

theorem rawInvocationKey_injective {workflowVersionId nodeId nodeId' : String}
    {branchPath branchPath' : List String} {iterationPath iterationPath' : IterationPath}
    (h : rawInvocationKey workflowVersionId nodeId branchPath iterationPath =
      rawInvocationKey workflowVersionId nodeId' branchPath' iterationPath') :
    nodeId = nodeId' ∧
      "/".intercalate (encodedIterationPath iterationPath) =
        "/".intercalate (encodedIterationPath iterationPath') :=
  ⟨(texts_of_rawInvocationKey h).left, (texts_of_rawInvocationKey h).right.right⟩

theorem encodedIterationPath_injective :
    forall {path path' : IterationPath},
      path.map IterationScopePart.loopNodeId = path'.map IterationScopePart.loopNodeId ->
      "/".intercalate (encodedIterationPath path) =
        "/".intercalate (encodedIterationPath path') ->
      path = path'
  | [], [], _, _ => rfl
  | [], _ :: _, hids, _ => by
      cases hids
  | _ :: _, [], hids, _ => by
      cases hids
  | part :: rest, part' :: rest', hids, h => by
      rw [List.map_cons, List.map_cons] at hids
      injection hids with hid hrestIds
      -- the loop is the same, so the ordinal is read up to the next separator
      have hpart : forall tail tail' : List Char,
          (part.loopNodeId ++ ":" ++ toString part.ordinal).toList ++ tail =
            (part'.loopNodeId ++ ":" ++ toString part'.ordinal).toList ++ tail' ->
          (toString part.ordinal).toList ++ tail = (toString part'.ordinal).toList ++ tail' := by
        intro tail tail' htext
        rw [hid] at htext
        simpa [String.toList_append] using htext
      have hordinal : forall ordinal : Nat, '/' ∉ (toString ordinal).toList :=
        slash_not_mem_toString_nat
      have hsame : part.ordinal = part'.ordinal -> part = part' := by
        intro heq
        cases part
        cases part'
        simp_all
      have htext := congrArg String.toList h
      cases rest with
      | nil =>
          cases rest' with
          | cons _ _ => cases hrestIds
          | nil =>
              rw [encodedIterationPath, encodedIterationPath, List.map_cons, List.map_cons,
                List.map_nil, String.intercalate_singleton, String.intercalate_singleton] at htext
              have hdigits := hpart [] [] (by simpa using htext)
              rw [List.append_nil, List.append_nil] at hdigits
              rw [hsame (toString_nat_injective (String.toList_injective hdigits))]
      | cons next tail =>
          cases rest' with
          | nil => cases hrestIds
          | cons next' tail' =>
              simp only [encodedIterationPath, List.map_cons, String.intercalate_cons_cons,
                String.toList_append] at htext
              have hdigits := hpart
                ('/' :: ("/".intercalate (encodedIterationPath (next :: tail))).toList)
                ('/' :: ("/".intercalate (encodedIterationPath (next' :: tail'))).toList)
                (by simpa [encodedIterationPath, String.toList_append] using htext)
              rcases eq_of_append_separator (hordinal _) (hordinal _) hdigits with
                ⟨hnumber, hrest⟩
              rw [hsame (toString_nat_injective (String.toList_injective hnumber)),
                encodedIterationPath_injective hrestIds (String.toList_injective hrest)]

/-!
## Addresses
-/

/-- The key of the step is built from its scope, and the loops around it are those of its path. -/
structure IsAddress (executable : CompiledWorkflowExecutable) (workflowVersionId : String)
    (scope : InvocationScope) : Prop where
  key : scope.key =
    rawInvocationKey workflowVersionId scope.node (encodedBranchPath scope.branch) scope.path
  ancestors : ancestorsOf executable.graph scope.node =
    some (scope.path.map IterationScopePart.loopNodeId)

theorem IsAddress.eq_of_key_eq {executable : CompiledWorkflowExecutable}
    {workflowVersionId : String} {scope scope' : InvocationScope}
    (h : IsAddress executable workflowVersionId scope)
    (h' : IsAddress executable workflowVersionId scope') (hkey : scope.key = scope'.key) :
    scope.node = scope'.node ∧ scope.path = scope'.path := by
  rw [h.key, h'.key] at hkey
  rcases rawInvocationKey_injective hkey with ⟨hnode, htext⟩
  have hids := h.ancestors
  rw [hnode, h'.ancestors, Option.some.injEq] at hids
  exact ⟨hnode, encodedIterationPath_injective hids.symm htext⟩

theorem rawInvocationKey_of_scopedInvocationKey {workflowVersionId nodeId key : String}
    {branchPath : Option BranchPath} {iterationPath : Option IterationPath}
    (h : scopedInvocationKey workflowVersionId nodeId branchPath iterationPath = Except.ok key) :
    key = rawInvocationKey workflowVersionId nodeId (encodedBranchPath (branchPath.getD []))
      (iterationPath.getD []) := by
  unfold scopedInvocationKey invocationKey at h
  dsimp only at h
  split at h
  · cases h
  · injection h with hkey
    exact hkey.symm

end Engine
end Pertexo
