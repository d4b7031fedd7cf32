import Mathlib.Algebra.BigOperators.Finprod
import Pertexo.Callable.CachedClosure

/-!
# Call paths

## Paths from a version

A path names the call site taken at each version by its position.
-/

namespace Pertexo
namespace Callable

open Library

abbrev CallPath := List Nat

def calledAt (family : VersionFamily) (root summary : CallableVersionSummary) (position : Nat) :
    Option CallableVersionSummary :=
  summary.calls[position]?.bind fun site => family.target root site.pin

def pathEnd (family : VersionFamily) (root : CallableVersionSummary) :
    CallPath -> CallableVersionSummary -> Option CallableVersionSummary
  | [], summary => some summary
  | position :: rest, summary =>
      (calledAt family root summary position).bind (pathEnd family root rest)

def pathWorkflows (family : VersionFamily) (root : CallableVersionSummary) :
    CallPath -> CallableVersionSummary -> List String
  | [], summary => [summary.workflowId]
  | position :: rest, summary =>
      summary.workflowId ::
        ((calledAt family root summary position).map (pathWorkflows family root rest)).getD []

/-- The product of the multiplicities on a path times the expanded invocations of
its end; what is no call path weighs nothing. -/
def pathWeight (family : VersionFamily) (root : CallableVersionSummary) :
    CallPath -> CallableVersionSummary -> Nat
  | [], summary => summary.expandedInvocations
  | position :: rest, summary =>
      match summary.calls[position]? with
      | none => 0
      | some site =>
          match family.target root site.pin with
          | none => 0
          | some target => site.multiplicity * pathWeight family root rest target

/-- The pin is resolved to a version that it matches. -/
def PinMatches (family : VersionFamily) (root : CallableVersionSummary) (pin : WorkflowCallPin) :
    Prop :=
  exists target, family.target root pin = some target ∧ target.toWorkflowCallPin = pin

/-- Every path from a version ends in the root's workspace at a version whose pins
match, and repeats no workflow, nor one of the ancestors. -/
structure ValidBelow (family : VersionFamily) (root : CallableVersionSummary)
    (ancestors : List String) (summary : CallableVersionSummary) : Prop where
  workspace : forall path last, pathEnd family root path summary = some last ->
    last.workspaceId = root.workspaceId
  pins : forall path last, pathEnd family root path summary = some last ->
    forall site, site ∈ last.calls -> PinMatches family root site.pin
  acyclic : forall path last, pathEnd family root path summary = some last ->
    (pathWorkflows family root path summary).Nodup
  fresh : forall path last, pathEnd family root path summary = some last ->
    forall workflowId, workflowId ∈ pathWorkflows family root path summary ->
      workflowId ∉ ancestors

section

variable {family : VersionFamily} {root summary target : CallableVersionSummary}
variable {ancestors : List String} {site : CallSite} {position : Nat}

theorem pathEnd_cons {rest : CallPath} (h : calledAt family root summary position = some target) :
    pathEnd family root (position :: rest) summary = pathEnd family root rest target := by
  rw [pathEnd, h]
  rfl

theorem pathWorkflows_cons {rest : CallPath}
    (h : calledAt family root summary position = some target) :
    pathWorkflows family root (position :: rest) summary =
      summary.workflowId :: pathWorkflows family root rest target := by
  rw [pathWorkflows, h]
  rfl

theorem calledAt_of_getElem? (hsite : summary.calls[position]? = some site)
    (htarget : family.target root site.pin = some target) :
    calledAt family root summary position = some target := by
  rw [calledAt, hsite]
  exact htarget

theorem validBelow_iff :
    ValidBelow family root ancestors summary ↔
      summary.workspaceId = root.workspaceId ∧ summary.workflowId ∉ ancestors ∧
        forall site, site ∈ summary.calls -> exists target,
          callTarget family root site.pin = Except.ok target ∧
            ValidBelow family root (summary.workflowId :: ancestors) target := by
  constructor
  · intro h
    refine ⟨h.workspace [] summary rfl, h.fresh [] summary rfl _ (List.mem_singleton_self _), ?_⟩
    intro site hsite
    rcases h.pins [] summary rfl site hsite with ⟨target, htarget, hpin⟩
    rcases List.getElem?_of_mem hsite with ⟨position, hposition⟩
    have hcalled := calledAt_of_getElem? hposition htarget
    refine ⟨target, callTarget_eq_ok_iff.mpr ⟨htarget, hpin⟩, ?_, ?_, ?_, ?_⟩
    · intro path last hlast
      exact h.workspace (position :: path) last ((pathEnd_cons hcalled).trans hlast)
    · intro path last hlast
      exact h.pins (position :: path) last ((pathEnd_cons hcalled).trans hlast)
    · intro path last hlast
      have hnodup := h.acyclic (position :: path) last ((pathEnd_cons hcalled).trans hlast)
      rw [pathWorkflows_cons hcalled] at hnodup
      exact (List.nodup_cons.mp hnodup).right
    · intro path last hlast workflowId hmem hancestor
      have hpath : pathEnd family root (position :: path) summary = some last :=
        (pathEnd_cons hcalled).trans hlast
      have hnodup := h.acyclic (position :: path) last hpath
      have hfresh := h.fresh (position :: path) last hpath workflowId
      rw [pathWorkflows_cons hcalled] at hnodup hfresh
      rcases List.mem_cons.mp hancestor with rfl | hold
      · exact (List.nodup_cons.mp hnodup).left hmem
      · exact hfresh (List.mem_cons_of_mem _ hmem) hold
  · rintro ⟨hworkspace, hfresh, hcalls⟩
    have hnext : forall position rest last,
        pathEnd family root (position :: rest) summary = some last ->
        exists target, calledAt family root summary position = some target ∧
          pathEnd family root rest target = some last ∧
          ValidBelow family root (summary.workflowId :: ancestors) target := by
      intro position rest last hlast
      rw [pathEnd, Option.bind_eq_some_iff] at hlast
      rcases hlast with ⟨target, hcalled, hrest⟩
      rcases Option.bind_eq_some_iff.mp hcalled with ⟨site, hsite, htarget⟩
      rcases hcalls site (List.mem_of_getElem? hsite) with ⟨found, hfound, hvalid⟩
      cases (callTarget_eq_ok_iff.mp hfound).left.symm.trans htarget
      exact ⟨target, hcalled, hrest, hvalid⟩
    constructor
    · intro path last hlast
      cases path with
      | nil =>
          cases hlast
          exact hworkspace
      | cons position rest =>
          rcases hnext position rest last hlast with ⟨target, _, hrest, hvalid⟩
          exact hvalid.workspace rest last hrest
    · intro path last hlast site hsite
      cases path with
      | nil =>
          cases hlast
          rcases hcalls site hsite with ⟨target, htarget, _⟩
          exact ⟨target, callTarget_eq_ok_iff.mp htarget⟩
      | cons position rest =>
          rcases hnext position rest last hlast with ⟨target, _, hrest, hvalid⟩
          exact hvalid.pins rest last hrest site hsite
    · intro path last hlast
      cases path with
      | nil => exact List.nodup_singleton _
      | cons position rest =>
          rcases hnext position rest last hlast with ⟨target, hcalled, hrest, hvalid⟩
          rw [pathWorkflows_cons hcalled]
          apply List.nodup_cons.mpr
          refine ⟨?_, hvalid.acyclic rest last hrest⟩
          exact fun hmem => hvalid.fresh rest last hrest _ hmem (List.mem_cons_self ..)
    · intro path last hlast workflowId hmem hancestor
      cases path with
      | nil =>
          rw [List.mem_singleton.mp hmem] at hancestor
          exact hfresh hancestor
      | cons position rest =>
          rcases hnext position rest last hlast with ⟨target, hcalled, hrest, hvalid⟩
          rw [pathWorkflows_cons hcalled] at hmem
          rcases List.mem_cons.mp hmem with rfl | hlater
          · exact hfresh hancestor
          · exact hvalid.fresh rest last hrest workflowId hlater
              (List.mem_cons_of_mem _ hancestor)

/-!
## Totals
-/

def siteTotal (family : VersionFamily) (root : CallableVersionSummary)
    (total : CallableVersionSummary -> Nat) (site : CallSite) : Nat :=
  match family.target root site.pin with
  | none => 0
  | some target => site.multiplicity * total target

def callTotal (family : VersionFamily) (root : CallableVersionSummary) :
    Nat -> CallableVersionSummary -> Nat
  | 0, _ => 0
  | fuel + 1, summary =>
      summary.expandedInvocations +
        (summary.calls.map (siteTotal family root (callTotal family root fuel))).sum

theorem siteTotal_of_target {total : CallableVersionSummary -> Nat}
    (h : family.target root site.pin = some target) :
    siteTotal family root total site = site.multiplicity * total target := by
  rw [siteTotal, h]

variable {maximumInvocations : Nat}

theorem count_of_foldlM {closureOf : CallableVersionSummary -> Except CallFailure Closure}
    {total : CallableVersionSummary -> Nat}
    (htotal : forall target child, closureOf target = Except.ok child -> child.count = total target)
    {calls : List CallSite} {start closure : Closure}
    (h : calls.foldlM (uncachedCall closureOf family root maximumInvocations) start =
      Except.ok closure) :
    closure.count = start.count + (calls.map (siteTotal family root total)).sum := by
  induction calls generalizing start with
  | nil =>
      cases h
      rfl
  | cons site rest ih =>
      rw [List.foldlM_cons] at h
      rcases exists_of_bind_eq_ok h with ⟨next, hnext, hrest⟩
      rcases uncachedCall_eq_ok_iff.mp hnext with ⟨target, child, htarget, hchild, hadd⟩
      rw [ih hrest, (addCall_eq_ok_iff.mp hadd).right, List.map_cons, List.sum_cons,
        siteTotal_of_target (callTarget_eq_ok_iff.mp htarget).left, ← htotal target child hchild,
        Nat.add_assoc]

/-- A closure counts its total, and everything below its version is valid. -/
theorem uncachedClosure_sound {fuel : Nat} {closure : Closure}
    (h : uncachedClosure family root maximumInvocations fuel ancestors summary =
      Except.ok closure) :
    ValidBelow family root ancestors summary ∧
      closure.count = callTotal family root fuel summary ∧ closure.count ≤ maximumInvocations := by
  induction fuel generalizing ancestors summary closure with
  | zero => cases h
  | succ fuel ih =>
      rcases uncachedClosure_succ_eq_ok_iff.mp h with ⟨hworkspace, hfresh, start, hstart, hfold⟩
      rcases startClosure_eq_ok_iff.mp hstart with ⟨hwithin, rfl⟩
      refine ⟨validBelow_iff.mpr ⟨hworkspace, hfresh, ?_⟩, ?_, ?_⟩
      · have hall : forall (calls : List CallSite) (start : Closure),
            calls.foldlM
              (uncachedCall
                (uncachedClosure family root maximumInvocations fuel
                  (summary.workflowId :: ancestors)) family root maximumInvocations) start =
              Except.ok closure ->
            forall site, site ∈ calls -> exists target,
              callTarget family root site.pin = Except.ok target ∧
                ValidBelow family root (summary.workflowId :: ancestors) target := by
          intro calls
          induction calls with
          | nil => exact fun start _ site hsite => absurd hsite List.not_mem_nil
          | cons first rest ihRest =>
              intro start hcalls site hsite
              rw [List.foldlM_cons] at hcalls
              rcases exists_of_bind_eq_ok hcalls with ⟨next, hnext, hrest⟩
              rcases List.mem_cons.mp hsite with rfl | hlater
              · rcases uncachedCall_eq_ok_iff.mp hnext with ⟨target, child, htarget, hchild, _⟩
                exact ⟨target, htarget, (ih hchild).left⟩
              · exact ihRest next hrest site hlater
        exact hall summary.calls _ hfold
      · exact count_of_foldlM (fun target child hchild => (ih hchild).right.left) hfold
      · apply foldlM_invariant (fun closure : Closure => closure.count ≤ maximumInvocations)
          hwithin _ hfold
        intro site _ before after _ hafter
        rcases uncachedCall_eq_ok_iff.mp hafter with ⟨_, _, _, _, hadd⟩
        rcases addCall_eq_ok_iff.mp hadd with ⟨hle, rfl⟩
        exact hle

/-- A version that is valid below has a closure when its total is within the maximum. -/
theorem exists_uncachedClosure {fuel : Nat} (hmem : summary ∈ root :: family.summaries)
    (hvalid : ValidBelow family root ancestors summary)
    (hfuel : versionsLeft family root ancestors < fuel)
    (htotal : callTotal family root fuel summary ≤ maximumInvocations) :
    exists closure, uncachedClosure family root maximumInvocations fuel ancestors summary =
      Except.ok closure := by
  induction fuel generalizing ancestors summary with
  | zero => exact absurd hfuel (Nat.not_lt_zero _)
  | succ fuel ih =>
      rcases validBelow_iff.mp hvalid with ⟨hworkspace, hfresh, hcalls⟩
      have hless := Nat.lt_of_lt_of_le (versionsLeft_lt hmem hfresh) (Nat.le_of_lt_succ hfuel)
      rw [callTotal] at htotal
      have hall : forall (calls : List CallSite) (start : Closure),
          (forall site, site ∈ calls -> site ∈ summary.calls) ->
          start.count + (calls.map (siteTotal family root (callTotal family root fuel))).sum ≤
            maximumInvocations ->
          exists closure, calls.foldlM
            (uncachedCall
              (uncachedClosure family root maximumInvocations fuel
                (summary.workflowId :: ancestors)) family root maximumInvocations) start =
            Except.ok closure := by
        intro calls
        induction calls with
        | nil => exact fun start _ _ => ⟨start, rfl⟩
        | cons site rest ihRest =>
            intro start hsites hsum
            rcases hcalls site (hsites site (List.mem_cons_self ..)) with
              ⟨target, htarget, htargetValid⟩
            have hfound := (callTarget_eq_ok_iff.mp htarget).left
            rw [List.map_cons, List.sum_cons, siteTotal_of_target hfound] at hsum
            have hshare := Nat.le_mul_of_pos_left (callTotal family root fuel target)
              site.multiplicity_pos
            rcases ih (mem_of_target hfound) htargetValid hless (by omega) with ⟨child, hchild⟩
            rw [← (uncachedClosure_sound hchild).right.left, ← Nat.add_assoc] at hsum
            have hadd : addCall maximumInvocations start site child = Except.ok
                { count := start.count + site.multiplicity * child.count
                  workflows := addWorkflows start.workflows child.workflows } :=
              addCall_eq_ok_iff.mpr ⟨(Nat.le_add_right _ _).trans hsum, rfl⟩
            have hlater : forall site, site ∈ rest -> site ∈ summary.calls :=
              fun other hother => hsites other (List.mem_cons_of_mem _ hother)
            rcases ihRest
              { count := start.count + site.multiplicity * child.count
                workflows := addWorkflows start.workflows child.workflows } hlater hsum with
              ⟨closure, hclosure⟩
            refine ⟨closure, ?_⟩
            rw [List.foldlM_cons]
            exact bind_eq_ok_iff.mpr
              ⟨_, uncachedCall_eq_ok_iff.mpr ⟨target, child, htarget, hchild, hadd⟩, hclosure⟩
      rcases hall summary.calls
        { count := summary.expandedInvocations, workflows := [summary.workflowId] }
        (fun _ hsite => hsite) htotal with ⟨closure, hclosure⟩
      refine ⟨closure, uncachedClosure_succ_eq_ok_iff.mpr ⟨hworkspace, hfresh, _, ?_, hclosure⟩⟩
      exact startClosure_eq_ok_iff.mpr ⟨(Nat.le_add_right _ _).trans htotal, rfl⟩

end

end Callable
end Pertexo
