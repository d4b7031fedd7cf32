import Pertexo.Callable.CallPaths

/-!
# Exact closures

## Every call path
-/

namespace Pertexo
namespace Callable

open Library

def pathsWithin (family : VersionFamily) (root : CallableVersionSummary) :
    Nat -> CallableVersionSummary -> List CallPath
  | 0, _ => []
  | bound + 1, summary =>
      [] :: summary.calls.zipIdx.flatMap fun site =>
        match family.target root site.fst.pin with
        | none => []
        | some target => (pathsWithin family root bound target).map (site.snd :: ·)

section

variable {family : VersionFamily} {root summary target : CallableVersionSummary}
variable {ancestors : List String} {bound : Nat} {path : CallPath}

theorem mem_pathsWithin_succ_iff {position : Nat} {rest : CallPath} :
    position :: rest ∈ pathsWithin family root (bound + 1) summary ↔
      exists target, calledAt family root summary position = some target ∧
        rest ∈ pathsWithin family root bound target := by
  rw [pathsWithin, List.mem_cons, List.mem_flatMap]
  constructor
  · rintro (hnil | ⟨⟨site, index⟩, hsite, hrest⟩)
    · cases hnil
    · rw [List.mem_zipIdx_iff_getElem?] at hsite
      dsimp only at hsite hrest
      cases htarget : family.target root site.pin with
      | none =>
          rw [htarget] at hrest
          cases hrest
      | some target =>
          rw [htarget] at hrest
          rcases List.mem_map.mp hrest with ⟨tail, htail, hcons⟩
          injection hcons with hindex hsame
          rw [← hindex, ← hsame]
          exact ⟨target, calledAt_of_getElem? hsite htarget, htail⟩
  · rintro ⟨target, hcalled, hrest⟩
    rcases Option.bind_eq_some_iff.mp hcalled with ⟨site, hsite, htarget⟩
    apply Or.inr
    refine ⟨(site, position), List.mem_zipIdx_iff_getElem?.mpr hsite, ?_⟩
    dsimp only
    rw [htarget]
    exact List.mem_map.mpr ⟨rest, hrest, rfl⟩

theorem mem_pathsWithin_iff :
    path ∈ pathsWithin family root bound summary ↔
      (pathEnd family root path summary).isSome = true ∧ path.length < bound := by
  induction bound generalizing path summary with
  | zero =>
      constructor
      · intro h
        cases h
      · intro h
        exact absurd h.right (Nat.not_lt_zero _)
  | succ bound ih =>
      cases path with
      | nil =>
          constructor
          · exact fun _ => ⟨rfl, Nat.zero_lt_succ _⟩
          · exact fun _ => List.mem_cons_self ..
      | cons position rest =>
          rw [mem_pathsWithin_succ_iff]
          constructor
          · rintro ⟨target, hcalled, hrest⟩
            rcases ih.mp hrest with ⟨hend, hlength⟩
            exact ⟨pathEnd_cons hcalled ▸ hend, Nat.succ_lt_succ hlength⟩
          · rintro ⟨hend, hlength⟩
            rw [Option.isSome_iff_exists] at hend
            rcases hend with ⟨last, hlast⟩
            rcases Option.bind_eq_some_iff.mp hlast with ⟨target, hcalled, hrest⟩
            refine ⟨target, hcalled, ih.mpr ⟨?_, Nat.lt_of_succ_lt_succ hlength⟩⟩
            rw [hrest]
            rfl

theorem nodup_pathsWithin : (pathsWithin family root bound summary).Nodup := by
  induction bound generalizing summary with
  | zero => exact List.nodup_nil
  | succ bound ih =>
      rw [pathsWithin, List.nodup_cons]
      constructor
      · intro hnil
        rcases List.mem_flatMap.mp hnil with ⟨site, _, hsite⟩
        split at hsite
        · cases hsite
        · rcases List.mem_map.mp hsite with ⟨_, _, hcons⟩
          cases hcons
      · rw [List.nodup_flatMap]
        constructor
        · intro site _
          split
          · exact List.nodup_nil
          · exact ih.map fun _ _ h => (List.cons.inj h).right
        · have hpositions : (summary.calls.zipIdx.map Prod.snd).Nodup := by
            rw [List.zipIdx_map_snd]
            exact List.nodup_range'
          rw [List.Nodup, List.pairwise_map] at hpositions
          apply hpositions.imp
          intro left right hne path hleft hright
          apply hne
          dsimp only at hleft hright
          split at hleft
          · cases hleft
          · split at hright
            · cases hright
            · rcases List.mem_map.mp hleft with ⟨_, _, rfl⟩
              rcases List.mem_map.mp hright with ⟨_, _, hcons⟩
              exact (List.cons.inj hcons).left.symm

theorem sum_map_mul (factor : Nat) (weights : List Nat) :
    (weights.map (factor * ·)).sum = factor * weights.sum := by
  induction weights with
  | nil => rfl
  | cons weight rest ih => rw [List.map_cons, List.sum_cons, List.sum_cons, ih, Nat.mul_add]

theorem sum_pathsWithin :
    ((pathsWithin family root bound summary).map fun path =>
      pathWeight family root path summary).sum = callTotal family root bound summary := by
  induction bound generalizing summary with
  | zero => rfl
  | succ bound ih =>
      have hsites : forall site, site ∈ summary.calls.zipIdx ->
          ((match family.target root site.fst.pin with
            | none => []
            | some target => (pathsWithin family root bound target).map (site.snd :: ·)).map
            fun path => pathWeight family root path summary).sum =
            siteTotal family root (callTotal family root bound) site.fst := by
        intro site hsite
        rw [List.mem_zipIdx_iff_getElem?] at hsite
        rw [siteTotal]
        cases htarget : family.target root site.fst.pin with
        | none => rfl
        | some target =>
            dsimp only
            rw [List.map_map, ← ih, ← sum_map_mul, List.map_map]
            apply congrArg List.sum
            apply List.map_congr_left
            intro path _
            rw [Function.comp_apply, Function.comp_apply, pathWeight, hsite]
            dsimp only
            rw [htarget]
      rw [pathsWithin, List.map_cons, List.sum_cons, callTotal, pathWeight, List.map_flatMap,
        List.flatMap_def, List.sum_flatten, List.map_map]
      apply congrArg (summary.expandedInvocations + ·)
      refine (congrArg List.sum (List.map_congr_left hsites)).trans ?_
      have hfirst := congrArg
        (fun sites => (sites.map (siteTotal family root (callTotal family root bound))).sum)
        (List.zipIdx_map_fst 0 summary.calls)
      rw [List.map_map] at hfirst
      exact hfirst

/-- A path from a valid version is shorter than the number of versions left. -/
theorem length_lt_of_validBelow {last : CallableVersionSummary}
    (hmem : summary ∈ root :: family.summaries)
    (hvalid : ValidBelow family root ancestors summary)
    (hend : pathEnd family root path summary = some last) :
    path.length < versionsLeft family root ancestors := by
  induction path generalizing ancestors summary with
  | nil =>
      rcases validBelow_iff.mp hvalid with ⟨_, hfresh, _⟩
      exact Nat.lt_of_le_of_lt (Nat.zero_le _) (versionsLeft_lt hmem hfresh)
  | cons position rest ih =>
      rcases validBelow_iff.mp hvalid with ⟨_, hfresh, hcalls⟩
      rcases Option.bind_eq_some_iff.mp hend with ⟨target, hcalled, hrest⟩
      rcases Option.bind_eq_some_iff.mp hcalled with ⟨site, hsite, htarget⟩
      rcases hcalls site (List.mem_of_getElem? hsite) with ⟨found, hfound, hfoundValid⟩
      cases (callTarget_eq_ok_iff.mp hfound).left.symm.trans htarget
      have hless := ih (mem_of_target htarget) hfoundValid hrest
      exact Nat.lt_of_le_of_lt hless (versionsLeft_lt hmem hfresh)

/-- The call paths from the root are finitely many when everything below it is valid. -/
theorem callPaths_finite (hvalid : ValidBelow family root ancestors summary)
    (hmem : summary ∈ root :: family.summaries) :
    {path | (pathEnd family root path summary).isSome = true}.Finite := by
  apply (List.finite_toSet
    (pathsWithin family root (versionsLeft family root ancestors) summary)).subset
  intro path hpath
  rcases Option.isSome_iff_exists.mp hpath with ⟨last, hlast⟩
  exact mem_pathsWithin_iff.mpr ⟨hpath, length_lt_of_validBelow hmem hvalid hlast⟩

theorem pathWeight_of_no_path (h : pathEnd family root path summary = none) :
    pathWeight family root path summary = 0 := by
  induction path generalizing summary with
  | nil => cases h
  | cons position rest ih =>
      rw [pathWeight]
      cases hsite : summary.calls[position]? with
      | none => rfl
      | some site =>
          dsimp only
          cases htarget : family.target root site.pin with
          | none => rfl
          | some target =>
              rw [pathEnd_cons (calledAt_of_getElem? hsite htarget)] at h
              show site.multiplicity * pathWeight family root rest target = 0
              rw [ih h, Nat.mul_zero]

/-- The total of enough fuel is the sum of the weights of all call paths. -/
theorem callTotal_eq_finsum {fuel : Nat} (hmem : summary ∈ root :: family.summaries)
    (hvalid : ValidBelow family root ancestors summary)
    (hfuel : versionsLeft family root ancestors < fuel) :
    callTotal family root fuel summary =
      finsum fun path => pathWeight family root path summary := by
  have hsupport : Function.support (fun path => pathWeight family root path summary) ⊆
      ((pathsWithin family root fuel summary).toFinset : Set CallPath) := by
    intro path hpath
    rw [Function.mem_support] at hpath
    rw [List.coe_toFinset]
    cases hend : pathEnd family root path summary with
    | none => exact absurd (pathWeight_of_no_path hend) hpath
    | some last =>
        apply mem_pathsWithin_iff.mpr
        exact ⟨by rw [hend]; rfl, (length_lt_of_validBelow hmem hvalid hend).trans hfuel⟩
  rw [finsum_eq_sum_of_support_subset _ hsupport, List.sum_toFinset _ nodup_pathsWithin,
    sum_pathsWithin]

/-!
## Counts

The fuel covers every path, so a refusal is never for want of it.
-/

theorem versionsLeft_lt_closureFuel : versionsLeft family root [] < closureFuel family := by
  have hle := List.length_filter_le (fun other : CallableVersionSummary =>
    !List.contains [] other.workflowId) (root :: family.summaries)
  rw [List.length_cons] at hle
  rw [versionsLeft, closureFuel]
  omega

variable {maximumInvocations : Nat}

theorem validateCallDependencyClosure_eq_ok_iff {count : Nat} :
    validateCallDependencyClosure root family maximumInvocations = Except.ok count ↔
      ValidBelow family root [] root ∧
        count = (finsum fun path => pathWeight family root path root) ∧
        count ≤ maximumInvocations := by
  have hroot : root ∈ root :: family.summaries := List.mem_cons_self ..
  rw [validateCallDependencyClosure_eq]
  constructor
  · intro h
    cases hclosure : uncachedClosure family root maximumInvocations (closureFuel family) []
      root with
    | error code =>
        rw [hclosure] at h
        cases h
    | ok closure =>
        rw [hclosure] at h
        cases h
        rcases uncachedClosure_sound hclosure with ⟨hvalid, hcount, hle⟩
        rw [callTotal_eq_finsum hroot hvalid versionsLeft_lt_closureFuel] at hcount
        exact ⟨hvalid, hcount, hle⟩
  · rintro ⟨hvalid, hcount, hle⟩
    have htotal := callTotal_eq_finsum hroot hvalid versionsLeft_lt_closureFuel
    rw [hcount, ← htotal] at hle
    rcases exists_uncachedClosure hroot hvalid versionsLeft_lt_closureFuel hle with
      ⟨closure, hclosure⟩
    rw [hclosure, hcount, ← htotal, ← (uncachedClosure_sound hclosure).right.left]
    rfl

theorem validateCallDependencyClosure_ne_outOfFuel :
    validateCallDependencyClosure root family maximumInvocations ≠ Except.error .outOfFuel := by
  have hroot : root ∈ root :: family.summaries := List.mem_cons_self ..
  have hfueled : uncachedClosure family root maximumInvocations (closureFuel family) [] root ≠
      Except.error .outOfFuel :=
    uncachedClosure_fueled hroot versionsLeft_lt_closureFuel
  rw [validateCallDependencyClosure_eq]
  intro h
  cases hclosure : uncachedClosure family root maximumInvocations (closureFuel family) [] root with
  | ok closure =>
      rw [hclosure] at h
      cases h
  | error code =>
      rw [hclosure] at h hfueled
      injection h with hcode
      exact hfueled (congrArg Except.error hcode)

/-!
## The order of call sites
-/

/-- The same summary, with its call sites in another order. -/
structure Reorders (left right : CallableVersionSummary) : Prop where
  pin : left.toWorkflowCallPin = right.toWorkflowCallPin
  workspaceId : left.workspaceId = right.workspaceId
  expandedInvocations : left.expandedInvocations = right.expandedInvocations
  calls : left.calls.Perm right.calls

theorem Reorders.symm {left right : CallableVersionSummary} (h : Reorders left right) :
    Reorders right left :=
  ⟨h.pin.symm, h.workspaceId.symm, h.expandedInvocations.symm, h.calls.symm⟩

theorem Reorders.workflowId {left right : CallableVersionSummary} (h : Reorders left right) :
    left.workflowId = right.workflowId :=
  congrArg WorkflowCallPin.workflowId h.pin

theorem Reorders.workflowVersionId {left right : CallableVersionSummary}
    (h : Reorders left right) : left.workflowVersionId = right.workflowVersionId :=
  congrArg WorkflowCallPin.workflowVersionId h.pin

variable {family' : VersionFamily} {root' summary' : CallableVersionSummary}

theorem resolve_of_reorders
    (hfamily : List.Forall₂ Reorders family.summaries family'.summaries) {pin : WorkflowCallPin}
    (h : family.resolve pin = some target) :
    exists target', family'.resolve pin = some target' ∧ Reorders target target' := by
  rw [VersionFamily.resolve] at h ⊢
  generalize family.summaries = summaries at h hfamily
  generalize family'.summaries = summaries' at hfamily
  induction hfamily with
  | nil => cases h
  | cons hhead _ ih =>
      rw [List.find?_cons] at h ⊢
      rw [← hhead.workflowVersionId]
      split at h
      · next hfound =>
        cases h
        exact ⟨_, rfl, hhead⟩
      · exact ih h

theorem target_of_reorders (hroot : Reorders root root')
    (hfamily : List.Forall₂ Reorders family.summaries family'.summaries) {pin : WorkflowCallPin}
    (h : family.target root pin = some target) :
    exists target', family'.target root' pin = some target' ∧ Reorders target target' := by
  rw [VersionFamily.target] at h ⊢
  rw [← hroot.workflowVersionId]
  split at h
  · next hsame =>
    cases h
    rw [if_pos hsame]
    exact ⟨root', rfl, hroot⟩
  · next hother =>
    rw [if_neg hother]
    exact resolve_of_reorders hfamily h

theorem validBelow_of_reorders (hroot : Reorders root root')
    (hfamily : List.Forall₂ Reorders family.summaries family'.summaries)
    (hmem : summary ∈ root :: family.summaries) (hsummary : Reorders summary summary')
    (hvalid : ValidBelow family root ancestors summary) :
    ValidBelow family' root' ancestors summary' := by
  induction hleft : versionsLeft family root ancestors using Nat.strong_induction_on
    generalizing ancestors summary summary' with
  | _ left ih =>
      rcases validBelow_iff.mp hvalid with ⟨hworkspace, hfresh, hcalls⟩
      have hless := versionsLeft_lt hmem hfresh
      rw [hleft] at hless
      apply validBelow_iff.mpr
      rw [← hsummary.workspaceId, ← hsummary.workflowId, ← hroot.workspaceId]
      refine ⟨hworkspace, hfresh, ?_⟩
      intro site hsite
      rcases hcalls site (hsummary.calls.mem_iff.mpr hsite) with ⟨target, htarget, hbelow⟩
      rcases callTarget_eq_ok_iff.mp htarget with ⟨hfound, hpin⟩
      rcases target_of_reorders hroot hfamily hfound with ⟨target', hfound', hreorders⟩
      refine ⟨target', callTarget_eq_ok_iff.mpr ⟨hfound', hreorders.pin.symm.trans hpin⟩, ?_⟩
      exact ih _ hless (mem_of_target hfound) hreorders hbelow rfl

theorem Forall₂_reorders_symm
    (hfamily : List.Forall₂ Reorders family.summaries family'.summaries) :
    List.Forall₂ Reorders family'.summaries family.summaries :=
  hfamily.flip.imp fun _ _ h => h.symm

theorem callTotal_of_reorders (hroot : Reorders root root')
    (hfamily : List.Forall₂ Reorders family.summaries family'.summaries)
    (hsummary : Reorders summary summary') (fuel : Nat) :
    callTotal family root fuel summary = callTotal family' root' fuel summary' := by
  induction fuel generalizing summary summary' with
  | zero => rfl
  | succ fuel ih =>
      have hsites : forall site, siteTotal family root (callTotal family root fuel) site =
          siteTotal family' root' (callTotal family' root' fuel) site := by
        intro site
        cases hfound : family.target root site.pin with
        | some target =>
            rcases target_of_reorders hroot hfamily hfound with ⟨target', hfound', hreorders⟩
            rw [siteTotal_of_target hfound, siteTotal_of_target hfound', ih hreorders]
        | none =>
            cases hfound' : family'.target root' site.pin with
            | none => rw [siteTotal, siteTotal, hfound, hfound']
            | some target' =>
                rcases target_of_reorders hroot.symm (Forall₂_reorders_symm hfamily) hfound' with
                  ⟨target, hsome, _⟩
                rw [hfound] at hsome
                cases hsome
      rw [callTotal, callTotal, hsummary.expandedInvocations, funext hsites]
      exact congrArg _ (hsummary.calls.map _).sum_eq

theorem validateCallDependencyClosure_of_reorders {count : Nat} (hroot : Reorders root root')
    (hfamily : List.Forall₂ Reorders family.summaries family'.summaries)
    (h : validateCallDependencyClosure root family maximumInvocations = Except.ok count) :
    validateCallDependencyClosure root' family' maximumInvocations = Except.ok count := by
  have hmem : root ∈ root :: family.summaries := List.mem_cons_self ..
  have hmem' : root' ∈ root' :: family'.summaries := List.mem_cons_self ..
  rcases validateCallDependencyClosure_eq_ok_iff.mp h with ⟨hvalid, hcount, hle⟩
  have hvalid' := validBelow_of_reorders hroot hfamily hmem hroot hvalid
  apply validateCallDependencyClosure_eq_ok_iff.mpr
  refine ⟨hvalid', ?_, hle⟩
  have hfuel : versionsLeft family root [] < closureFuel family := versionsLeft_lt_closureFuel
  have hfuel' : versionsLeft family' root' [] < closureFuel family' := versionsLeft_lt_closureFuel
  rw [hcount,
    ← callTotal_eq_finsum hmem hvalid (hfuel.trans_le (Nat.le_max_left _ (closureFuel family'))),
    ← callTotal_eq_finsum hmem' hvalid' (hfuel'.trans_le (Nat.le_max_right (closureFuel family) _))]
  exact callTotal_of_reorders hroot hfamily hroot _

/-- The order of the call sites decides which refusal comes first, and nothing else. -/
theorem toOption_validateCallDependencyClosure (hroot : Reorders root root')
    (hfamily : List.Forall₂ Reorders family.summaries family'.summaries) :
    (validateCallDependencyClosure root family maximumInvocations).toOption =
      (validateCallDependencyClosure root' family' maximumInvocations).toOption := by
  cases hresult : validateCallDependencyClosure root family maximumInvocations with
  | ok count => rw [validateCallDependencyClosure_of_reorders hroot hfamily hresult]
  | error code =>
      cases hresult' : validateCallDependencyClosure root' family' maximumInvocations with
      | error code' => rfl
      | ok count =>
          have hcount := validateCallDependencyClosure_of_reorders hroot.symm
            (Forall₂_reorders_symm hfamily) hresult'
          rw [hresult] at hcount
          cases hcount

end

end Callable
end Pertexo
