import Pertexo.Library.Results

/-!
# Call dependencies

## Version summaries

A call site pins a published version. Its multiplicity is a product of iteration
bounds, which are positive.
-/

namespace Pertexo
namespace Callable

structure WorkflowCallPin where
  workflowId : String
  workflowVersionId : String
  executableChecksum : String
deriving DecidableEq, Repr

structure CallSite where
  nodeId : String
  pin : WorkflowCallPin
  multiplicity : Nat
  multiplicity_pos : 0 < multiplicity
deriving DecidableEq, Repr

/-- The expanded invocations include each local call, with loop products applied. -/
structure CallableVersionSummary extends WorkflowCallPin where
  workspaceId : String
  expandedInvocations : Nat
  calls : List CallSite
deriving DecidableEq, Repr

/-- The immutable versions that a pin may be resolved to. -/
structure VersionFamily where
  summaries : List CallableVersionSummary

def VersionFamily.resolve (family : VersionFamily) (pin : WorkflowCallPin) :
    Option CallableVersionSummary :=
  family.summaries.find? fun summary => summary.workflowVersionId == pin.workflowVersionId

/-- The codes of a refusal; a resolver may fail, and fuel may run out. -/
inductive CallFailure where
  | workspace
  | pin
  | cycle
  | expansion
  | unresolved
  | outOfFuel
deriving DecidableEq, Repr

/-!
## The closure with its caches

Summaries are kept by version, and so are the closures of the versions that were
visited. The ancestors are the workflows on the way to the visited version.
-/

structure Closure where
  count : Nat
  workflows : List String
deriving DecidableEq, Repr

structure ClosureState where
  summaries : List (String × CallableVersionSummary)
  closures : List (String × Closure)
  ancestors : List String

structure ClosureProgress where
  closure : Closure
  state : ClosureState

def addWorkflows (workflows added : List String) : List String :=
  added.foldl (fun set workflowId => if set.contains workflowId then set else set ++ [workflowId])
    workflows

def resolveTarget (family : VersionFamily) (state : ClosureState) (pin : WorkflowCallPin) :
    Except CallFailure (CallableVersionSummary × ClosureState) :=
  match state.summaries.lookup pin.workflowVersionId with
  | some target => Except.ok (target, state)
  | none =>
      match family.resolve pin with
      | none => Except.error .unresolved
      | some target =>
          Except.ok
            (target,
              { state with
                summaries := (pin.workflowVersionId, target) :: state.summaries })

def checkPin (target : CallableVersionSummary) (pin : WorkflowCallPin) :
    Except CallFailure Unit :=
  if target.workflowId != pin.workflowId ||
      target.workflowVersionId != pin.workflowVersionId ||
      target.executableChecksum != pin.executableChecksum then
    Except.error .pin
  else Except.ok ()

/-- The closure with a call site's share, unless the count exceeds the maximum. -/
def addCall (maximumInvocations : Nat) (closure : Closure) (site : CallSite) (child : Closure) :
    Except CallFailure Closure :=
  let count := closure.count + site.multiplicity * child.count
  if count > maximumInvocations then Except.error .expansion
  else
    Except.ok
      { count
        workflows := addWorkflows closure.workflows child.workflows }

def visitCall
    (visit : CallableVersionSummary -> ClosureState ->
      Except CallFailure (Closure × ClosureState))
    (family : VersionFamily) (maximumInvocations : Nat) (progress : ClosureProgress)
    (site : CallSite) : Except CallFailure ClosureProgress := do
  let (target, state) ← resolveTarget family progress.state site.pin
  checkPin target site.pin
  let (child, state) ← visit target state
  let closure ← addCall maximumInvocations progress.closure site child
  Except.ok { closure, state }

def startClosure (maximumInvocations : Nat) (summary : CallableVersionSummary) :
    Except CallFailure Closure :=
  if summary.expandedInvocations > maximumInvocations then Except.error .expansion
  else
    Except.ok
      { count := summary.expandedInvocations
        workflows := [summary.workflowId] }

def visit (family : VersionFamily) (root : CallableVersionSummary) (maximumInvocations : Nat) :
    Nat -> CallableVersionSummary -> ClosureState ->
      Except CallFailure (Closure × ClosureState)
  | 0, _, _ => Except.error .outOfFuel
  | fuel + 1, summary, state =>
      if summary.workspaceId != root.workspaceId then Except.error .workspace
      else if state.ancestors.contains summary.workflowId then Except.error .cycle
      else
        match state.closures.lookup summary.workflowVersionId with
        | some cached =>
            if cached.workflows.any state.ancestors.contains then Except.error .cycle
            else Except.ok (cached, state)
        | none => do
            let start ← startClosure maximumInvocations summary
            let progress ← summary.calls.foldlM
              (visitCall (visit family root maximumInvocations fuel) family maximumInvocations)
              { closure := start
                state := { state with ancestors := summary.workflowId :: state.ancestors } }
            Except.ok
              (progress.closure,
                { progress.state with
                  ancestors := progress.state.ancestors.erase summary.workflowId
                  closures :=
                    (summary.workflowVersionId, progress.closure) :: progress.state.closures })

/-- A path of calls holds a workflow at most once, so the fuel covers every path. -/
def closureFuel (family : VersionFamily) : Nat :=
  family.summaries.length + 2

/-- Validated immutable summaries are shared; every call site's weight still counts. -/
def validateCallDependencyClosure (root : CallableVersionSummary) (family : VersionFamily)
    (maximumInvocations : Nat) : Except CallFailure Nat := do
  let (closure, _) ← visit family root maximumInvocations (closureFuel family) root
    { summaries := [(root.workflowVersionId, root)]
      closures := []
      ancestors := [] }
  Except.ok closure.count

/-!
## The closure without caches

The same recursion visits a version again wherever it is called.
-/

/-- The root is known by its version; other versions are resolved. -/
def VersionFamily.target (family : VersionFamily) (root : CallableVersionSummary)
    (pin : WorkflowCallPin) : Option CallableVersionSummary :=
  if pin.workflowVersionId = root.workflowVersionId then some root else family.resolve pin

def callTarget (family : VersionFamily) (root : CallableVersionSummary) (pin : WorkflowCallPin) :
    Except CallFailure CallableVersionSummary :=
  match family.target root pin with
  | none => Except.error .unresolved
  | some target => do
      checkPin target pin
      Except.ok target

def uncachedCall (closureOf : CallableVersionSummary -> Except CallFailure Closure)
    (family : VersionFamily) (root : CallableVersionSummary) (maximumInvocations : Nat)
    (closure : Closure) (site : CallSite) : Except CallFailure Closure := do
  let target ← callTarget family root site.pin
  let child ← closureOf target
  addCall maximumInvocations closure site child

def uncachedClosure (family : VersionFamily) (root : CallableVersionSummary)
    (maximumInvocations : Nat) :
    Nat -> List String -> CallableVersionSummary -> Except CallFailure Closure
  | 0, _, _ => Except.error .outOfFuel
  | fuel + 1, ancestors, summary =>
      if summary.workspaceId != root.workspaceId then Except.error .workspace
      else if ancestors.contains summary.workflowId then Except.error .cycle
      else do
        let start ← startClosure maximumInvocations summary
        summary.calls.foldlM
          (uncachedCall
            (uncachedClosure family root maximumInvocations fuel
              (summary.workflowId :: ancestors))
            family root maximumInvocations)
          start

end Callable
end Pertexo
