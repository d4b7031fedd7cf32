import Pertexo.Callable.Dependencies

/-!
# Cached closures

## Folds over call sites
-/

namespace Pertexo
namespace Callable

open Library

variable {family : VersionFamily} {root : CallableVersionSummary} {maximumInvocations : Nat}

theorem mem_addWorkflows {workflows added : List String} {workflowId : String} :
    workflowId ∈ addWorkflows workflows added ↔ workflowId ∈ workflows ∨ workflowId ∈ added := by
  rw [addWorkflows]
  induction added generalizing workflows with
  | nil => simp
  | cons first rest ih =>
      rw [List.foldl_cons, ih, List.mem_cons]
      split
      · next hheld =>
        rw [List.contains_iff_mem] at hheld
        constructor
        · rintro (hmem | hmem)
          · exact Or.inl hmem
          · exact Or.inr (Or.inr hmem)
        · rintro (hmem | rfl | hmem)
          · exact Or.inl hmem
          · exact Or.inl hheld
          · exact Or.inr hmem
      · rw [List.mem_append, List.mem_singleton, or_assoc]

theorem addCall_eq_ok_iff {closure child next : Closure} {site : CallSite} :
    addCall maximumInvocations closure site child = Except.ok next ↔
      closure.count + site.multiplicity * child.count ≤ maximumInvocations ∧
        next =
          { count := closure.count + site.multiplicity * child.count
            workflows := addWorkflows closure.workflows child.workflows } := by
  simp only [addCall]
  split
  · next hover =>
    constructor
    · intro h
      cases h
    · intro h
      exact absurd h.left (Nat.not_le_of_lt hover)
  · next hwithin =>
    constructor
    · intro h
      exact ⟨Nat.le_of_not_lt hwithin, (Except.ok.inj h).symm⟩
    · rintro ⟨_, rfl⟩
      rfl

theorem checkPin_eq_ok_iff {target : CallableVersionSummary} {pin : WorkflowCallPin} :
    checkPin target pin = Except.ok () ↔ target.toWorkflowCallPin = pin := by
  rw [checkPin]
  cases target with
  | mk held workspaceId expandedInvocations calls =>
      cases held
      cases pin
      simp only [Bool.or_eq_true, bne_iff_ne, WorkflowCallPin.mk.injEq]
      split
      · next hother =>
        constructor
        · intro h
          cases h
        · rintro ⟨rfl, rfl, rfl⟩
          simp at hother
      · next hsame =>
        rw [not_or, not_or, Decidable.not_not, Decidable.not_not, Decidable.not_not] at hsame
        exact ⟨fun _ => ⟨hsame.left.left, hsame.left.right, hsame.right⟩, fun _ => rfl⟩

theorem callTarget_eq_ok_iff {pin : WorkflowCallPin} {target : CallableVersionSummary} :
    callTarget family root pin = Except.ok target ↔
      family.target root pin = some target ∧ target.toWorkflowCallPin = pin := by
  rw [callTarget]
  cases hfound : family.target root pin with
  | none =>
      constructor
      · intro h
        cases h
      · intro h
        cases h.left
  | some found =>
      constructor
      · intro h
        rcases exists_of_bind_eq_ok h with ⟨_, hpin, hsame⟩
        cases hsame
        exact ⟨rfl, checkPin_eq_ok_iff.mp hpin⟩
      · rintro ⟨hsame, hpin⟩
        cases hsame
        exact bind_eq_ok_iff.mpr ⟨(), checkPin_eq_ok_iff.mpr hpin, rfl⟩

theorem uncachedCall_eq_ok_iff {closureOf : CallableVersionSummary -> Except CallFailure Closure}
    {closure next : Closure} {site : CallSite} :
    uncachedCall closureOf family root maximumInvocations closure site = Except.ok next ↔
      exists target child, callTarget family root site.pin = Except.ok target ∧
        closureOf target = Except.ok child ∧
        addCall maximumInvocations closure site child = Except.ok next := by
  constructor
  · intro h
    rcases exists_of_bind_eq_ok h with ⟨target, htarget, h⟩
    rcases exists_of_bind_eq_ok h with ⟨child, hchild, h⟩
    exact ⟨target, child, htarget, hchild, h⟩
  · rintro ⟨target, child, htarget, hchild, h⟩
    exact bind_eq_ok_iff.mpr ⟨target, htarget, bind_eq_ok_iff.mpr ⟨child, hchild, h⟩⟩

theorem startClosure_eq_ok_iff {summary : CallableVersionSummary} {start : Closure} :
    startClosure maximumInvocations summary = Except.ok start ↔
      summary.expandedInvocations ≤ maximumInvocations ∧
        start =
          { count := summary.expandedInvocations
            workflows := [summary.workflowId] } := by
  rw [startClosure]
  split
  · next hover =>
    constructor
    · intro h
      cases h
    · intro h
      exact absurd h.left (Nat.not_le_of_lt hover)
  · next hwithin =>
    constructor
    · intro h
      exact ⟨Nat.le_of_not_lt hwithin, (Except.ok.inj h).symm⟩
    · rintro ⟨_, rfl⟩
      rfl

theorem uncachedClosure_succ_eq_ok_iff {fuel : Nat} {ancestors : List String}
    {summary : CallableVersionSummary} {closure : Closure} :
    uncachedClosure family root maximumInvocations (fuel + 1) ancestors summary =
        Except.ok closure ↔
      summary.workspaceId = root.workspaceId ∧ summary.workflowId ∉ ancestors ∧
        exists start, startClosure maximumInvocations summary = Except.ok start ∧
          summary.calls.foldlM
            (uncachedCall
              (uncachedClosure family root maximumInvocations fuel
                (summary.workflowId :: ancestors))
              family root maximumInvocations)
            start = Except.ok closure := by
  rw [uncachedClosure]
  split
  · next hworkspace =>
    constructor
    · intro h
      cases h
    · intro h
      rw [h.left, bne_self_eq_false] at hworkspace
      cases hworkspace
  · next hworkspace =>
    rw [bne_iff_ne, Decidable.not_not] at hworkspace
    split
    · next hcycle =>
      constructor
      · intro h
        cases h
      · intro h
        exact absurd (List.contains_iff_mem.mp hcycle) h.right.left
    · next hcycle =>
      rw [List.contains_iff_mem] at hcycle
      rw [bind_eq_ok_iff]
      exact ⟨fun h => ⟨hworkspace, hcycle, h⟩, fun h => h.right.right⟩

theorem addCall_workflows {closure child next : Closure} {site : CallSite}
    (h : addCall maximumInvocations closure site child = Except.ok next) {workflowId : String} :
    workflowId ∈ next.workflows ↔
      workflowId ∈ closure.workflows ∨ workflowId ∈ child.workflows := by
  rw [(addCall_eq_ok_iff.mp h).right]
  exact mem_addWorkflows

theorem workflows_of_foldlM {closureOf : CallableVersionSummary -> Except CallFailure Closure}
    {calls : List CallSite} {start closure : Closure}
    (h : calls.foldlM (uncachedCall closureOf family root maximumInvocations) start =
      Except.ok closure) {workflowId : String} (hmem : workflowId ∈ start.workflows) :
    workflowId ∈ closure.workflows := by
  apply foldlM_invariant (fun closure => workflowId ∈ closure.workflows) hmem _ h
  intro site _ before after hbefore hafter
  rcases uncachedCall_eq_ok_iff.mp hafter with ⟨_, _, _, _, hadd⟩
  exact (addCall_workflows hadd).mpr (Or.inl hbefore)

/-!
## Visiting a version again
-/

inductive Reruns (closure : Closure) (ancestors : List String) :
    Except CallFailure Closure -> Prop where
  | ok (hdisjoint : forall workflowId, workflowId ∈ closure.workflows ->
      workflowId ∉ ancestors) : Reruns closure ancestors (Except.ok closure)
  | cycle {workflowId : String} (hmem : workflowId ∈ closure.workflows)
      (hancestor : workflowId ∈ ancestors) : Reruns closure ancestors (Except.error .cycle)
  | outOfFuel : Reruns closure ancestors (Except.error .outOfFuel)

theorem disjoint_of_uncachedClosure {fuel : Nat} {ancestors : List String}
    {summary : CallableVersionSummary} {closure : Closure}
    (h : uncachedClosure family root maximumInvocations fuel ancestors summary =
      Except.ok closure) :
    forall workflowId, workflowId ∈ closure.workflows -> workflowId ∉ ancestors := by
  induction fuel generalizing ancestors summary closure with
  | zero => cases h
  | succ fuel ih =>
      rcases uncachedClosure_succ_eq_ok_iff.mp h with ⟨_, hfresh, start, hstart, hfold⟩
      apply foldlM_invariant (fun closure : Closure => forall workflowId,
        workflowId ∈ closure.workflows -> workflowId ∉ ancestors) _ _ hfold
      · intro other hother
        rw [(startClosure_eq_ok_iff.mp hstart).right, List.mem_singleton] at hother
        rw [hother]
        exact hfresh
      · intro site _ before after hbefore hafter other hother
        rcases uncachedCall_eq_ok_iff.mp hafter with ⟨_, child, _, hchild, hadd⟩
        rcases (addCall_workflows hadd).mp hother with hold | hnew
        · exact hbefore other hold
        · exact fun hancestor => ih hchild other hnew (List.mem_cons_of_mem _ hancestor)

theorem reruns_foldlM {fuel fuel' : Nat} {ancestors ancestors' : List String}
    {workflowId : String}
    (hrerun : forall target child,
      uncachedClosure family root maximumInvocations fuel (workflowId :: ancestors) target =
        Except.ok child ->
      Reruns child (workflowId :: ancestors')
        (uncachedClosure family root maximumInvocations fuel' (workflowId :: ancestors') target))
    {calls : List CallSite} {start closure : Closure}
    (hstart : forall other, other ∈ start.workflows -> other ∉ ancestors')
    (h : calls.foldlM
      (uncachedCall
        (uncachedClosure family root maximumInvocations fuel (workflowId :: ancestors))
        family root maximumInvocations) start = Except.ok closure) :
    Reruns closure ancestors'
      (calls.foldlM
        (uncachedCall
          (uncachedClosure family root maximumInvocations fuel' (workflowId :: ancestors'))
          family root maximumInvocations) start) := by
  induction calls generalizing start with
  | nil =>
      cases h
      exact Reruns.ok hstart
  | cons site rest ih =>
      rw [List.foldlM_cons] at h ⊢
      rcases exists_of_bind_eq_ok h with ⟨next, hnext, hrest⟩
      rcases uncachedCall_eq_ok_iff.mp hnext with ⟨target, child, htarget, hchild, hadd⟩
      have hagain := hrerun target child hchild
      rw [uncachedCall, htarget]
      show Reruns closure ancestors'
        (((uncachedClosure family root maximumInvocations fuel' (workflowId :: ancestors')
          target) >>= addCall maximumInvocations start site) >>= _)
      generalize uncachedClosure family root maximumInvocations fuel' (workflowId :: ancestors')
        target = again at hagain
      cases hagain with
      | ok hdisjoint =>
          show Reruns closure ancestors' (addCall maximumInvocations start site child >>= _)
          rw [hadd]
          apply ih _ hrest
          intro other hother
          rcases (addCall_workflows hadd).mp hother with hold | hnew
          · exact hstart other hold
          · exact fun hancestor => hdisjoint other hnew (List.mem_cons_of_mem _ hancestor)
      | @cycle other hmem hancestor =>
          apply Reruns.cycle
          · exact workflows_of_foldlM hrest ((addCall_workflows hadd).mpr (Or.inr hmem))
          · rcases List.mem_cons.mp hancestor with rfl | hother
            · exact absurd (List.mem_cons_self ..) (disjoint_of_uncachedClosure hchild _ hmem)
            · exact hother
      | outOfFuel => exact Reruns.outOfFuel

/-- Below other ancestors a version has the same closure, unless it repeats one of them. -/
theorem reruns_of_uncachedClosure {fuel : Nat} {ancestors : List String}
    {summary : CallableVersionSummary} {closure : Closure}
    (h : uncachedClosure family root maximumInvocations fuel ancestors summary =
      Except.ok closure) (fuel' : Nat) (ancestors' : List String) :
    Reruns closure ancestors'
      (uncachedClosure family root maximumInvocations fuel' ancestors' summary) := by
  induction fuel generalizing ancestors summary closure fuel' ancestors' with
  | zero => cases h
  | succ fuel ih =>
      rcases uncachedClosure_succ_eq_ok_iff.mp h with ⟨hworkspace, _, start, hstart, hfold⟩
      have hworkflows := (startClosure_eq_ok_iff.mp hstart).right
      cases fuel' with
      | zero => exact Reruns.outOfFuel
      | succ fuel' =>
          rw [uncachedClosure, hworkspace, bne_self_eq_false, if_neg Bool.false_ne_true]
          split
          · next hcycle =>
            apply Reruns.cycle _ (List.contains_iff_mem.mp hcycle)
            apply workflows_of_foldlM hfold
            rw [hworkflows]
            exact List.mem_singleton_self _
          · next hfresh =>
            rw [List.contains_iff_mem] at hfresh
            rw [hstart]
            show Reruns closure ancestors' (summary.calls.foldlM _ start)
            apply reruns_foldlM _ _ hfold
            · intro target child hchild
              exact ih hchild fuel' _
            · intro other hother
              rw [hworkflows, List.mem_singleton] at hother
              rw [hother]
              exact hfresh

/-!
## Enough fuel

The fuel counts the versions whose workflow is not an ancestor yet.
-/

def versionsLeft (family : VersionFamily) (root : CallableVersionSummary)
    (ancestors : List String) : Nat :=
  ((root :: family.summaries).filter fun summary =>
    !ancestors.contains summary.workflowId).length

theorem versionsLeft_lt {ancestors : List String} {summary : CallableVersionSummary}
    (hmem : summary ∈ root :: family.summaries) (hfresh : summary.workflowId ∉ ancestors) :
    versionsLeft family root (summary.workflowId :: ancestors) <
      versionsLeft family root ancestors := by
  have hfilter : (root :: family.summaries).filter (fun other =>
      !(summary.workflowId :: ancestors).contains other.workflowId) =
      ((root :: family.summaries).filter fun other =>
        !ancestors.contains other.workflowId).filter fun other =>
          other.workflowId != summary.workflowId := by
    rw [List.filter_filter]
    apply List.filter_congr
    intro other _
    rw [List.contains_cons, Bool.not_or]
    rfl
  rw [versionsLeft, hfilter]
  apply List.length_filter_lt_length_iff_exists.mpr
  refine ⟨summary, List.mem_filter.mpr ⟨hmem, ?_⟩, by simp⟩
  rw [Bool.not_eq_true', Bool.eq_false_iff, ne_eq, List.contains_iff_mem]
  exact hfresh

theorem mem_of_target {pin : WorkflowCallPin} {target : CallableVersionSummary}
    (h : family.target root pin = some target) : target ∈ root :: family.summaries := by
  rw [VersionFamily.target] at h
  split at h
  · rw [← Option.some.inj h]
    exact List.mem_cons_self ..
  · exact List.mem_cons_of_mem _ (List.mem_of_find?_eq_some h)

theorem startClosure_ne_outOfFuel {summary : CallableVersionSummary} :
    startClosure maximumInvocations summary ≠ Except.error .outOfFuel := by
  rw [startClosure]
  split
  · exact fun h => nomatch h
  · exact fun h => nomatch h

theorem callTarget_ne_outOfFuel {pin : WorkflowCallPin} :
    callTarget family root pin ≠ Except.error .outOfFuel := by
  intro h
  rw [callTarget] at h
  split at h
  · cases h
  · rcases bind_eq_error_iff.mp h with hpin | ⟨_, _, hok⟩
    · rw [checkPin] at hpin
      split at hpin
      · cases hpin
      · cases hpin
    · cases hok

theorem addCall_ne_outOfFuel {closure child : Closure} {site : CallSite} :
    addCall maximumInvocations closure site child ≠ Except.error .outOfFuel := by
  simp only [addCall]
  split
  · exact fun h => nomatch h
  · exact fun h => nomatch h

/-- The fuel of a version is enough for the closures of its calls. -/
theorem uncachedClosure_fueled {fuel : Nat} {ancestors : List String}
    {summary : CallableVersionSummary} (hmem : summary ∈ root :: family.summaries)
    (hfuel : versionsLeft family root ancestors < fuel) :
    uncachedClosure family root maximumInvocations fuel ancestors summary ≠
      Except.error .outOfFuel := by
  induction fuel generalizing ancestors summary with
  | zero => exact absurd hfuel (Nat.not_lt_zero _)
  | succ fuel ih =>
      rw [uncachedClosure]
      split
      · intro h
        cases h
      · split
        · intro h
          cases h
        · next hfresh =>
          rw [List.contains_iff_mem] at hfresh
          have hless := versionsLeft_lt hmem hfresh
          intro h
          rcases bind_eq_error_iff.mp h with hstart | ⟨start, _, hfold⟩
          · exact startClosure_ne_outOfFuel hstart
          · rcases foldlM_eq_error hfold with ⟨site, before, _, hsite⟩
            rcases bind_eq_error_iff.mp hsite with htarget | ⟨target, htarget, hsite⟩
            · exact callTarget_ne_outOfFuel htarget
            · rcases bind_eq_error_iff.mp hsite with hchild | ⟨child, _, hadd⟩
              · apply ih (mem_of_target (callTarget_eq_ok_iff.mp htarget).left) _ hchild
                exact Nat.lt_of_lt_of_le hless (Nat.le_of_lt_succ hfuel)
              · exact addCall_ne_outOfFuel hadd

/-!
## Visiting with caches
-/

def IsVersion (family : VersionFamily) (root summary : CallableVersionSummary) : Prop :=
  family.target root summary.toWorkflowCallPin = some summary

structure ValidCaches (family : VersionFamily) (root : CallableVersionSummary)
    (maximumInvocations : Nat) (state : ClosureState) : Prop where
  summaries : forall (pin : WorkflowCallPin) target,
    state.summaries.lookup pin.workflowVersionId = some target ->
    family.target root pin = some target
  root_known : state.summaries.lookup root.workflowVersionId = some root
  closures : forall summary closure, IsVersion family root summary ->
    state.closures.lookup summary.workflowVersionId = some closure ->
    exists fuel ancestors,
      uncachedClosure family root maximumInvocations fuel ancestors summary = Except.ok closure

/-- The cached visit ends as the uncached one, with caches that are valid again. -/
structure Simulates (family : VersionFamily) (root : CallableVersionSummary)
    (maximumInvocations : Nat) (ancestors : List String) (uncached : Except CallFailure Closure)
    (cached : Except CallFailure (Closure × ClosureState)) : Prop where
  ok : forall closure, uncached = Except.ok closure -> exists state,
    cached = Except.ok (closure, state) ∧ ValidCaches family root maximumInvocations state ∧
      state.ancestors = ancestors
  error : forall code, uncached = Except.error code -> cached = Except.error code

theorem target_of_version {left right : WorkflowCallPin}
    (h : left.workflowVersionId = right.workflowVersionId) :
    family.target root left = family.target root right := by
  rw [VersionFamily.target, VersionFamily.target, VersionFamily.resolve, VersionFamily.resolve, h]

theorem isVersion_of_callTarget {pin : WorkflowCallPin} {target : CallableVersionSummary}
    (h : callTarget family root pin = Except.ok target) : IsVersion family root target := by
  rcases callTarget_eq_ok_iff.mp h with ⟨htarget, hpin⟩
  rw [IsVersion, hpin]
  exact htarget

theorem isVersion_root : IsVersion family root root := by
  rw [IsVersion, VersionFamily.target, if_pos rfl]

/-- Resolving through the cache and checking the pin is finding the target of the pin. -/
theorem resolveTarget_spec {state : ClosureState}
    (h : ValidCaches family root maximumInvocations state) (pin : WorkflowCallPin) :
    (exists target after, resolveTarget family state pin = Except.ok (target, after) ∧
        family.target root pin = some target ∧
        ValidCaches family root maximumInvocations after ∧
        after.ancestors = state.ancestors) ∨
      (resolveTarget family state pin = Except.error .unresolved ∧
        family.target root pin = none) := by
  rw [resolveTarget]
  cases hlookup : state.summaries.lookup pin.workflowVersionId with
  | some target => exact Or.inl ⟨target, state, rfl, h.summaries pin target hlookup, h, rfl⟩
  | none =>
      have hother : pin.workflowVersionId ≠ root.workflowVersionId := by
        intro hroot
        rw [hroot, h.root_known] at hlookup
        cases hlookup
      have htarget : family.target root pin = family.resolve pin := by
        rw [VersionFamily.target, if_neg hother]
      cases hresolve : family.resolve pin with
      | none => exact Or.inr ⟨rfl, htarget.trans hresolve⟩
      | some target =>
          refine Or.inl ⟨target, _, rfl, htarget.trans hresolve, ?_, rfl⟩
          constructor
          · intro other found hfound
            dsimp only at hfound
            rw [List.lookup_cons] at hfound
            split at hfound
            · next hsame =>
              rw [beq_iff_eq] at hsame
              rw [target_of_version hsame, htarget, hresolve, ← hfound]
            · exact h.summaries other found hfound
          · dsimp only
            rw [List.lookup_cons]
            split
            · next hsame =>
              rw [beq_iff_eq] at hsame
              exact absurd hsame.symm hother
            · exact h.root_known
          · exact h.closures

section

variable {visitTarget : CallableVersionSummary -> ClosureState ->
  Except CallFailure (Closure × ClosureState)}
variable {closureOf : CallableVersionSummary -> Except CallFailure Closure}
variable {ancestors : List String}

theorem callTarget_eq_error_iff {pin : WorkflowCallPin} {code : CallFailure} :
    callTarget family root pin = Except.error code ↔
      (family.target root pin = none ∧ code = .unresolved) ∨
        exists target, family.target root pin = some target ∧
          checkPin target pin = Except.error code := by
  rw [callTarget]
  cases hfound : family.target root pin with
  | none =>
      constructor
      · intro h
        exact Or.inl ⟨rfl, (Except.error.inj h).symm⟩
      · rintro (⟨_, rfl⟩ | ⟨_, hsome, _⟩)
        · rfl
        · cases hsome
  | some found =>
      constructor
      · intro h
        rcases bind_eq_error_iff.mp h with hpin | ⟨_, _, hok⟩
        · exact Or.inr ⟨found, rfl, hpin⟩
        · cases hok
      · rintro (⟨hnone, _⟩ | ⟨target, hsome, hpin⟩)
        · cases hnone
        · cases hsome
          exact bind_eq_error_iff.mpr (Or.inl hpin)

theorem visitCall_spec
    (hvisit : forall target state, IsVersion family root target ->
      target ∈ root :: family.summaries ->
      ValidCaches family root maximumInvocations state -> state.ancestors = ancestors ->
      Simulates family root maximumInvocations ancestors (closureOf target)
        (visitTarget target state))
    {progress : ClosureProgress}
    (hcaches : ValidCaches family root maximumInvocations progress.state)
    (hancestors : progress.state.ancestors = ancestors) (site : CallSite) :
    (forall next, uncachedCall closureOf family root maximumInvocations progress.closure site =
        Except.ok next ->
      exists after, visitCall visitTarget family maximumInvocations progress site =
          Except.ok { closure := next, state := after } ∧
        ValidCaches family root maximumInvocations after ∧ after.ancestors = ancestors) ∧
    forall code, uncachedCall closureOf family root maximumInvocations progress.closure site =
        Except.error code ->
      visitCall visitTarget family maximumInvocations progress site = Except.error code := by
  have hspec := resolveTarget_spec hcaches site.pin
  constructor
  · intro next h
    rcases uncachedCall_eq_ok_iff.mp h with ⟨target, child, htarget, hchild, hadd⟩
    rcases callTarget_eq_ok_iff.mp htarget with ⟨hfound, hpin⟩
    rcases hspec with ⟨resolved, after, hresolve, hresolved, hafter, hsame⟩ | ⟨_, hnone⟩
    · cases hresolved.symm.trans hfound
      have hsimulates := hvisit target after (isVersion_of_callTarget htarget)
        (mem_of_target hfound) hafter (hsame.trans hancestors)
      rcases hsimulates.ok child hchild with ⟨visited, hvisited, hvalid, hkept⟩
      refine ⟨visited, ?_, hvalid, hkept⟩
      apply bind_eq_ok_iff.mpr ⟨(target, after), hresolve, _⟩
      apply bind_eq_ok_iff.mpr ⟨(), checkPin_eq_ok_iff.mpr hpin, _⟩
      apply bind_eq_ok_iff.mpr ⟨(child, visited), hvisited, _⟩
      exact bind_eq_ok_iff.mpr ⟨next, hadd, rfl⟩
    · rw [hnone] at hfound
      cases hfound
  · intro code h
    rcases bind_eq_error_iff.mp h with htarget | ⟨target, htarget, h⟩
    · rcases callTarget_eq_error_iff.mp htarget with ⟨hnone, rfl⟩ | ⟨target, hfound, hpin⟩
      · rcases hspec with ⟨resolved, after, _, hresolved, _⟩ | ⟨hresolve, _⟩
        · rw [hnone] at hresolved
          cases hresolved
        · exact bind_eq_error_iff.mpr (Or.inl hresolve)
      · rcases hspec with ⟨resolved, after, hresolve, hresolved, _⟩ | ⟨_, hnone⟩
        · cases hresolved.symm.trans hfound
          apply bind_eq_error_iff.mpr (Or.inr ⟨(target, after), hresolve, _⟩)
          exact bind_eq_error_iff.mpr (Or.inl hpin)
        · rw [hnone] at hfound
          cases hfound
    · rcases callTarget_eq_ok_iff.mp htarget with ⟨hfound, hpin⟩
      rcases hspec with ⟨resolved, after, hresolve, hresolved, hafter, hsame⟩ | ⟨_, hnone⟩
      · cases hresolved.symm.trans hfound
        have hsimulates := hvisit target after (isVersion_of_callTarget htarget)
          (mem_of_target hfound) hafter (hsame.trans hancestors)
        apply bind_eq_error_iff.mpr (Or.inr ⟨(target, after), hresolve, _⟩)
        apply bind_eq_error_iff.mpr (Or.inr ⟨(), checkPin_eq_ok_iff.mpr hpin, _⟩)
        rcases bind_eq_error_iff.mp h with hchild | ⟨child, hchild, hadd⟩
        · exact bind_eq_error_iff.mpr (Or.inl (hsimulates.error code hchild))
        · rcases hsimulates.ok child hchild with ⟨visited, hvisited, _⟩
          apply bind_eq_error_iff.mpr (Or.inr ⟨(child, visited), hvisited, _⟩)
          exact bind_eq_error_iff.mpr (Or.inl hadd)
      · rw [hnone] at hfound
        cases hfound

theorem visitCalls_spec
    (hvisit : forall target state, IsVersion family root target ->
      target ∈ root :: family.summaries ->
      ValidCaches family root maximumInvocations state -> state.ancestors = ancestors ->
      Simulates family root maximumInvocations ancestors (closureOf target)
        (visitTarget target state))
    (calls : List CallSite) (progress : ClosureProgress)
    (hcaches : ValidCaches family root maximumInvocations progress.state)
    (hancestors : progress.state.ancestors = ancestors) :
    (forall closure, calls.foldlM (uncachedCall closureOf family root maximumInvocations)
        progress.closure = Except.ok closure ->
      exists after, calls.foldlM (visitCall visitTarget family maximumInvocations) progress =
          Except.ok { closure, state := after } ∧
        ValidCaches family root maximumInvocations after ∧ after.ancestors = ancestors) ∧
    forall code, calls.foldlM (uncachedCall closureOf family root maximumInvocations)
        progress.closure = Except.error code ->
      calls.foldlM (visitCall visitTarget family maximumInvocations) progress =
        Except.error code := by
  induction calls generalizing progress with
  | nil =>
      constructor
      · intro closure h
        cases h
        exact ⟨progress.state, rfl, hcaches, hancestors⟩
      · intro code h
        cases h
  | cons site rest ih =>
      rcases visitCall_spec hvisit hcaches hancestors site with ⟨hok, herror⟩
      constructor
      · intro closure h
        rw [List.foldlM_cons] at h ⊢
        rcases exists_of_bind_eq_ok h with ⟨next, hnext, hrest⟩
        rcases hok next hnext with ⟨after, hvisited, hvalid, hkept⟩
        rcases (ih ⟨next, after⟩ hvalid hkept).left closure hrest with ⟨last, hlast, hresult⟩
        exact ⟨last, bind_eq_ok_iff.mpr ⟨_, hvisited, hlast⟩, hresult⟩
      · intro code h
        rw [List.foldlM_cons] at h ⊢
        rcases bind_eq_error_iff.mp h with hfirst | ⟨next, hnext, hrest⟩
        · exact bind_eq_error_iff.mpr (Or.inl (herror code hfirst))
        · rcases hok next hnext with ⟨after, hvisited, hvalid, hkept⟩
          exact bind_eq_error_iff.mpr
            (Or.inr ⟨_, hvisited, (ih ⟨next, after⟩ hvalid hkept).right code hrest⟩)

end

/-- A cached closure is used exactly where the uncached recursion has it again. -/
theorem simulates_cached {fuel : Nat} {ancestors : List String}
    {summary : CallableVersionSummary} {cached : Closure} {state : ClosureState}
    (hversion : IsVersion family root summary) (hmem : summary ∈ root :: family.summaries)
    (hcaches : ValidCaches family root maximumInvocations state)
    (hancestors : state.ancestors = ancestors)
    (hfuel : versionsLeft family root ancestors < fuel)
    (hcached : state.closures.lookup summary.workflowVersionId = some cached) :
    Simulates family root maximumInvocations ancestors
      (uncachedClosure family root maximumInvocations fuel ancestors summary)
      (if cached.workflows.any state.ancestors.contains then Except.error .cycle
        else Except.ok (cached, state)) := by
  rcases hcaches.closures summary cached hversion hcached with ⟨before, earlier, hclosure⟩
  have hreruns := reruns_of_uncachedClosure hclosure fuel ancestors
  have hfueled : uncachedClosure family root maximumInvocations fuel ancestors summary ≠
      Except.error .outOfFuel :=
    uncachedClosure_fueled hmem hfuel
  generalize uncachedClosure family root maximumInvocations fuel ancestors summary = again
    at hreruns hfueled
  cases hreruns with
  | ok hdisjoint =>
      have hnone : cached.workflows.any state.ancestors.contains = false := by
        rw [List.any_eq_false, hancestors]
        intro workflowId hworkflow
        rw [List.contains_iff_mem]
        exact hdisjoint workflowId hworkflow
      rw [hnone, if_neg Bool.false_ne_true]
      constructor
      · intro closure h
        cases h
        exact ⟨state, rfl, hcaches, hancestors⟩
      · intro code h
        cases h
  | @cycle workflowId hworkflow hancestor =>
      have hsome : cached.workflows.any state.ancestors.contains = true := by
        rw [List.any_eq_true]
        exact ⟨workflowId, hworkflow, List.contains_iff_mem.mpr (hancestors ▸ hancestor)⟩
      rw [hsome, if_pos rfl]
      constructor
      · intro closure h
        cases h
      · intro code h
        cases h
        rfl
  | outOfFuel => exact absurd rfl hfueled

theorem simulates_error {ancestors : List String} (code : CallFailure) :
    Simulates family root maximumInvocations ancestors (Except.error code)
      (Except.error code) := by
  constructor
  · intro closure h
    cases h
  · intro other h
    cases h
    rfl

theorem simulates_uncached {fuel : Nat} {ancestors : List String}
    {summary : CallableVersionSummary} {state : ClosureState}
    (hvisit : forall target state, IsVersion family root target ->
      target ∈ root :: family.summaries ->
      ValidCaches family root maximumInvocations state ->
      state.ancestors = summary.workflowId :: ancestors ->
      Simulates family root maximumInvocations (summary.workflowId :: ancestors)
        (uncachedClosure family root maximumInvocations fuel (summary.workflowId :: ancestors)
          target)
        (visit family root maximumInvocations fuel target state))
    (hversion : IsVersion family root summary)
    (hcaches : ValidCaches family root maximumInvocations state)
    (hancestors : state.ancestors = ancestors)
    (hworkspace : summary.workspaceId = root.workspaceId)
    (hfresh : summary.workflowId ∉ ancestors)
    (hcached : state.closures.lookup summary.workflowVersionId = none) :
    Simulates family root maximumInvocations ancestors
      (uncachedClosure family root maximumInvocations (fuel + 1) ancestors summary)
      (visit family root maximumInvocations (fuel + 1) summary state) := by
  have huncached : uncachedClosure family root maximumInvocations (fuel + 1) ancestors summary =
      startClosure maximumInvocations summary >>= fun start =>
        summary.calls.foldlM
          (uncachedCall
            (uncachedClosure family root maximumInvocations fuel
              (summary.workflowId :: ancestors)) family root maximumInvocations) start := by
    rw [uncachedClosure, hworkspace, bne_self_eq_false, if_neg Bool.false_ne_true, if_neg]
    rw [List.contains_iff_mem]
    exact hfresh
  have hcachedVisit : visit family root maximumInvocations (fuel + 1) summary state =
      startClosure maximumInvocations summary >>= fun start =>
        summary.calls.foldlM
          (visitCall (visit family root maximumInvocations fuel) family maximumInvocations)
          { closure := start
            state := { state with ancestors := summary.workflowId :: state.ancestors } } >>=
        fun progress =>
          Except.ok
            (progress.closure,
              { progress.state with
                ancestors := progress.state.ancestors.erase summary.workflowId
                closures :=
                  (summary.workflowVersionId, progress.closure) :: progress.state.closures }) := by
    rw [visit, hworkspace, bne_self_eq_false, if_neg Bool.false_ne_true, if_neg, hcached]
    rw [List.contains_iff_mem, hancestors]
    exact hfresh
  rw [huncached, hcachedVisit]
  cases hstart : startClosure maximumInvocations summary with
  | error code => exact simulates_error code
  | ok start =>
      have hcalls := visitCalls_spec hvisit summary.calls
        { closure := start
          state := { state with ancestors := summary.workflowId :: state.ancestors } }
        ⟨hcaches.summaries, hcaches.root_known, hcaches.closures⟩
        (congrArg (summary.workflowId :: ·) hancestors)
      constructor
      · intro closure h
        rcases hcalls.left closure h with ⟨after, hafter, hvalid, hkept⟩
        refine ⟨_, bind_eq_ok_iff.mpr ⟨start, rfl, bind_eq_ok_iff.mpr ⟨_, hafter, rfl⟩⟩, ?_, ?_⟩
        · refine ⟨hvalid.summaries, hvalid.root_known, ?_⟩
          intro other found hother hfound
          dsimp only at hfound
          rw [List.lookup_cons] at hfound
          split at hfound
          · next hsame =>
            rw [beq_iff_eq] at hsame
            have htarget : family.target root other.toWorkflowCallPin =
                family.target root summary.toWorkflowCallPin := target_of_version hsame
            have heq : other = summary := by
              apply Option.some.inj
              rw [← hother, htarget]
              exact hversion
            refine ⟨fuel + 1, ancestors, ?_⟩
            rw [heq, ← Option.some.inj hfound, huncached, hstart]
            exact h
          · exact hvalid.closures other found hother hfound
        · dsimp only
          rw [hkept]
          exact List.erase_cons_head ..
      · intro code h
        exact bind_eq_error_iff.mpr
          (Or.inr ⟨start, rfl, bind_eq_error_iff.mpr (Or.inl (hcalls.right code h))⟩)

/-- The cached visit ends as the uncached recursion does. -/
theorem simulates_visit {fuel : Nat} {ancestors : List String}
    {summary : CallableVersionSummary} {state : ClosureState}
    (hversion : IsVersion family root summary) (hmem : summary ∈ root :: family.summaries)
    (hcaches : ValidCaches family root maximumInvocations state)
    (hancestors : state.ancestors = ancestors)
    (hfuel : versionsLeft family root ancestors < fuel) :
    Simulates family root maximumInvocations ancestors
      (uncachedClosure family root maximumInvocations fuel ancestors summary)
      (visit family root maximumInvocations fuel summary state) := by
  induction fuel generalizing ancestors summary state with
  | zero => exact absurd hfuel (Nat.not_lt_zero _)
  | succ fuel ih =>
      by_cases hworkspace : summary.workspaceId = root.workspaceId
      · by_cases hfresh : summary.workflowId ∈ ancestors
        · rw [uncachedClosure, visit, hworkspace, bne_self_eq_false, if_neg Bool.false_ne_true,
            if_neg Bool.false_ne_true, hancestors, if_pos (List.contains_iff_mem.mpr hfresh),
            if_pos (List.contains_iff_mem.mpr hfresh)]
          exact simulates_error _
        · cases hcached : state.closures.lookup summary.workflowVersionId with
          | some cached =>
              have hsimulates :=
                simulates_cached hversion hmem hcaches hancestors hfuel hcached
              rw [visit, hworkspace, bne_self_eq_false, if_neg Bool.false_ne_true, if_neg, hcached]
              · exact hsimulates
              · rw [List.contains_iff_mem, hancestors]
                exact hfresh
          | none =>
              apply simulates_uncached _ hversion hcaches hancestors hworkspace hfresh hcached
              intro target next htarget htargetMem hvalid hsame
              apply ih htarget htargetMem hvalid hsame
              exact Nat.lt_of_lt_of_le (versionsLeft_lt hmem hfresh) (Nat.le_of_lt_succ hfuel)
      · rw [uncachedClosure, visit, if_pos (bne_iff_ne.mpr hworkspace),
          if_pos (bne_iff_ne.mpr hworkspace)]
        exact simulates_error _

/-- The cached closures give the same answer as the uncached recursion, failures included. -/
theorem validateCallDependencyClosure_eq :
    validateCallDependencyClosure root family maximumInvocations =
      (uncachedClosure family root maximumInvocations (closureFuel family) [] root).map
        Closure.count := by
  have hcaches : ValidCaches family root maximumInvocations
      { summaries := [(root.workflowVersionId, root)], closures := [], ancestors := [] } := by
    constructor
    · intro pin target h
      dsimp only at h
      rw [List.lookup_cons] at h
      split at h
      · next hsame =>
        rw [beq_iff_eq] at hsame
        rw [VersionFamily.target, if_pos hsame, ← Option.some.inj h]
      · cases h
    · exact List.lookup_cons_self
    · intro summary closure _ h
      cases h
  have hfuel : versionsLeft family root [] < closureFuel family := by
    have hle := List.length_filter_le (fun summary : CallableVersionSummary =>
      !([] : List String).contains summary.workflowId) (root :: family.summaries)
    rw [List.length_cons] at hle
    exact Nat.lt_of_le_of_lt hle (Nat.lt_succ_self _)
  have hsimulates := simulates_visit isVersion_root (List.mem_cons_self ..) hcaches rfl hfuel
  rw [validateCallDependencyClosure]
  cases huncached : uncachedClosure family root maximumInvocations (closureFuel family) [] root with
  | error code =>
      rw [hsimulates.error code huncached]
      rfl
  | ok closure =>
      rcases hsimulates.ok closure huncached with ⟨state, hstate, _⟩
      rw [hstate]
      rfl

end Callable
end Pertexo
