import Mathlib.Data.Set.Insert
import Mathlib.Logic.Function.Basic

/-!
# Nested loop scopes

## Scopes and windows

A step runs in a scope: a branch, and the path of the loop iterations around
it. A loop is a window over its ordinals: the ordinals below `next` have been
admitted, and the active ones among them may still start steps.
-/

namespace Pertexo
namespace Library

structure StepScope (Key Node Branch Part : Type) where
  key : Key
  node : Node
  branch : List Branch
  path : List Part

structure LoopWindow (Key Node Branch Part : Type) where
  key : Key
  node : Node
  branch : List Branch
  path : List Part
  next : Nat
  active : List Nat

section

variable {Key Node Branch Part : Type}

structure LoopWindow.Narrows (narrow wide : LoopWindow Key Node Branch Part) : Prop where
  key : narrow.key = wide.key
  node : narrow.node = wide.node
  branch : narrow.branch = wide.branch
  path : narrow.path = wide.path
  next : narrow.next = wide.next
  active : forall ordinal, ordinal ∈ narrow.active -> ordinal ∈ wide.active

theorem LoopWindow.Narrows.refl (w : LoopWindow Key Node Branch Part) : w.Narrows w :=
  ⟨rfl, rfl, rfl, rfl, rfl, fun _ h => h⟩

theorem LoopWindow.Narrows.trans {u v w : LoopWindow Key Node Branch Part}
    (huv : u.Narrows v) (hvw : v.Narrows w) : u.Narrows w :=
  ⟨huv.key.trans hvw.key, huv.node.trans hvw.node, huv.branch.trans hvw.branch,
    huv.path.trans hvw.path, huv.next.trans hvw.next,
    fun ordinal h => hvw.active ordinal (huv.active ordinal h)⟩

structure Settles (narrow wide : Set (LoopWindow Key Node Branch Part)) : Prop where
  narrows : forall v, v ∈ narrow -> exists w, w ∈ wide ∧ v.Narrows w
  narrowed : forall w, w ∈ wide -> exists v, v ∈ narrow ∧ v.Narrows w

variable (part : Node -> Nat -> Part)

def LoopWindow.iteration (window : LoopWindow Key Node Branch Part) (ordinal : Nat) :
    List Part :=
  window.path ++ [part window.node ordinal]

theorem LoopWindow.Narrows.iteration {v w : LoopWindow Key Node Branch Part}
    (h : v.Narrows w) (ordinal : Nat) : v.iteration part ordinal = w.iteration part ordinal := by
  rw [LoopWindow.iteration, LoopWindow.iteration, h.path, h.node]

/-!
## Well-scoped collections

Every iteration around a step belongs to a window that has admitted it, every
window has its control step, and a control step has one scope in each iteration.
-/

structure WellScoped (isControl : Node -> Prop)
    (scopes : Set (StepScope Key Node Branch Part))
    (loops : Set (LoopWindow Key Node Branch Part)) : Prop where
  enclosed : forall s, s ∈ scopes -> forall outer p, outer ++ [p] <+: s.path ->
    exists w, w ∈ loops ∧ w.path = outer ∧ w.branch <+: s.branch ∧
      exists ordinal, ordinal < w.next ∧ p = part w.node ordinal
  owned : forall w, w ∈ loops ->
    exists s, s ∈ scopes ∧ s.key = w.key ∧ s.node = w.node ∧ s.branch = w.branch ∧
      s.path = w.path
  controls : forall w, w ∈ loops -> isControl w.node
  unique : forall s, s ∈ scopes -> forall t, t ∈ scopes -> isControl s.node ->
    s.node = t.node -> s.path = t.path -> s.key = t.key
  keyed : forall w, w ∈ loops -> forall v, v ∈ loops -> w.key = v.key -> w = v
  active_lt : forall w, w ∈ loops -> forall ordinal, ordinal ∈ w.active -> ordinal < w.next

variable {part} {isControl : Node -> Prop} {scopes : Set (StepScope Key Node Branch Part)}
  {loops : Set (LoopWindow Key Node Branch Part)}

theorem wellScoped_empty :
    WellScoped part isControl (∅ : Set (StepScope Key Node Branch Part))
      (∅ : Set (LoopWindow Key Node Branch Part)) where
  enclosed := by
    intro s hs
    cases hs
  owned := by
    intro w hw
    cases hw
  controls := by
    intro w hw
    cases hw
  unique := by
    intro s hs
    cases hs
  keyed := by
    intro w hw
    cases hw
  active_lt := by
    intro w hw
    cases hw

theorem iteration_prefix_cases (hpart : Function.Injective2 part)
    {v w : LoopWindow Key Node Branch Part} {m n : Nat}
    (h : v.iteration part m <+: w.iteration part n) :
    (v.path = w.path ∧ v.node = w.node ∧ m = n) ∨ v.iteration part m <+: w.path := by
  unfold LoopWindow.iteration at h
  rcases List.prefix_concat_iff.mp h with heq | hleading
  · left
    rcases List.append_inj' heq rfl with ⟨hpath, hlast⟩
    rcases hpart (List.singleton_inj.mp hlast) with ⟨hnode, hordinal⟩
    exact ⟨hpath, hnode, hordinal⟩
  · exact Or.inr hleading

theorem WellScoped.window_eq (h : WellScoped part isControl scopes loops)
    {v w : LoopWindow Key Node Branch Part} (hv : v ∈ loops) (hw : w ∈ loops)
    (hnode : v.node = w.node) (hpath : v.path = w.path) : v = w := by
  rcases h.owned v hv with ⟨s, hs, hskey, hsnode, _, hspath⟩
  rcases h.owned w hw with ⟨t, ht, htkey, htnode, _, htpath⟩
  have hcontrol : isControl s.node := by
    rw [hsnode]
    exact h.controls v hv
  have hkey : s.key = t.key := by
    apply h.unique s hs t ht hcontrol
    · rw [hsnode, htnode, hnode]
    · rw [hspath, htpath, hpath]
  apply h.keyed v hv w hw
  rw [← hskey, ← htkey, hkey]

theorem WellScoped.branch_of_iteration (hpart : Function.Injective2 part)
    (h : WellScoped part isControl scopes loops)
    {s : StepScope Key Node Branch Part} {w : LoopWindow Key Node Branch Part} {ordinal : Nat}
    (hs : s ∈ scopes) (hw : w ∈ loops) (hleading : w.iteration part ordinal <+: s.path) :
    w.branch <+: s.branch ∧ ordinal < w.next := by
  rcases h.enclosed s hs w.path (part w.node ordinal) hleading with
    ⟨v, hv, hpath, hbranch, n, hn, hlast⟩
  rcases hpart hlast with ⟨hnode, rfl⟩
  have hvw : v = w := h.window_eq hv hw hnode.symm hpath
  exact ⟨hvw ▸ hbranch, hvw ▸ hn⟩

/-!
## Steps of a schedule

A schedule starts steps, declares loops, admits iterations, settles iterations,
and drops the iterations it has released.
-/

/-- A path where a step may start: the root, beside a known step, or in an active iteration. -/
def IsOpen (part : Node -> Nat -> Part) (scopes : Set (StepScope Key Node Branch Part))
    (loops : Set (LoopWindow Key Node Branch Part)) (branch : List Branch)
    (path : List Part) : Prop :=
  path = [] ∨
    (exists s, s ∈ scopes ∧ s.path = path ∧ s.branch <+: branch) ∨
    exists w, w ∈ loops ∧ w.branch <+: branch ∧
      exists ordinal, ordinal ∈ w.active ∧ path = w.iteration part ordinal

theorem WellScoped.settle (h : WellScoped part isControl scopes loops)
    {narrow : Set (LoopWindow Key Node Branch Part)} (hsettles : Settles narrow loops)
    (hkeyed : forall w, w ∈ narrow -> forall v, v ∈ narrow -> w.key = v.key -> w = v) :
    WellScoped part isControl scopes narrow where
  enclosed := by
    intro s hs outer p hleading
    rcases h.enclosed s hs outer p hleading with ⟨w, hw, hpath, hbranch, n, hn, hlast⟩
    rcases hsettles.narrowed w hw with ⟨v, hv, hvw⟩
    refine ⟨v, hv, hvw.path.trans hpath, hvw.branch ▸ hbranch, n, hvw.next ▸ hn, ?_⟩
    rw [hvw.node]
    exact hlast
  owned := by
    intro v hv
    rcases hsettles.narrows v hv with ⟨w, hw, hvw⟩
    rcases h.owned w hw with ⟨s, hs, hkey, hnode, hbranch, hpath⟩
    exact ⟨s, hs, hkey.trans hvw.key.symm, hnode.trans hvw.node.symm,
      hbranch.trans hvw.branch.symm, hpath.trans hvw.path.symm⟩
  controls := by
    intro v hv
    rcases hsettles.narrows v hv with ⟨w, hw, hvw⟩
    rw [hvw.node]
    exact h.controls w hw
  unique := h.unique
  keyed := hkeyed
  active_lt := by
    intro v hv ordinal hordinal
    rcases hsettles.narrows v hv with ⟨w, hw, hvw⟩
    rw [hvw.next]
    exact h.active_lt w hw ordinal (hvw.active ordinal hordinal)

theorem WellScoped.enclosed_of_isOpen (h : WellScoped part isControl scopes loops)
    {branch : List Branch} {path : List Part} (hopen : IsOpen part scopes loops branch path)
    {outer : List Part} {p : Part} (hleading : outer ++ [p] <+: path) :
    exists w, w ∈ loops ∧ w.path = outer ∧ w.branch <+: branch ∧
      exists ordinal, ordinal < w.next ∧ p = part w.node ordinal := by
  rcases hopen with hroot | ⟨s, hs, hpath, hbranch⟩ | ⟨w, hw, hbranch, n, hn, hpath⟩
  · rw [hroot] at hleading
    exact absurd (List.prefix_nil.mp hleading) (by simp)
  · rw [← hpath] at hleading
    rcases h.enclosed s hs outer p hleading with ⟨w, hw, hwpath, hwbranch, hordinal⟩
    exact ⟨w, hw, hwpath, hwbranch.trans hbranch, hordinal⟩
  · rw [hpath, LoopWindow.iteration] at hleading
    rcases List.prefix_concat_iff.mp hleading with heq | hinner
    · rcases List.append_inj' heq rfl with ⟨houter, hlast⟩
      exact ⟨w, hw, houter.symm, hbranch, n, h.active_lt w hw n hn,
        List.singleton_inj.mp hlast⟩
    · rcases h.owned w hw with ⟨s, hs, _, _, hsbranch, hspath⟩
      rw [← hspath] at hinner
      rcases h.enclosed s hs outer p hinner with ⟨v, hv, hvpath, hvbranch, hordinal⟩
      exact ⟨v, hv, hvpath, (hsbranch ▸ hvbranch).trans hbranch, hordinal⟩

theorem WellScoped.start (h : WellScoped part isControl scopes loops)
    {s : StepScope Key Node Branch Part} (hopen : IsOpen part scopes loops s.branch s.path)
    (hfresh : isControl s.node -> forall t, t ∈ scopes -> t.node = s.node -> t.path ≠ s.path) :
    WellScoped part isControl (insert s scopes) loops where
  enclosed := by
    intro t ht outer p hleading
    rcases Set.mem_insert_iff.mp ht with rfl | hmem
    · exact h.enclosed_of_isOpen hopen hleading
    · exact h.enclosed t hmem outer p hleading
  owned := by
    intro w hw
    rcases h.owned w hw with ⟨t, ht, hrest⟩
    exact ⟨t, Set.mem_insert_of_mem s ht, hrest⟩
  controls := h.controls
  unique := by
    intro t ht u hu hcontrol hnode hpath
    rcases Set.mem_insert_iff.mp ht with rfl | htold
    · rcases Set.mem_insert_iff.mp hu with rfl | huold
      · rfl
      · exact absurd hpath.symm (hfresh hcontrol u huold hnode.symm)
    · rcases Set.mem_insert_iff.mp hu with rfl | huold
      · exact absurd hpath (hfresh (hnode ▸ hcontrol) t htold hnode)
      · exact h.unique t htold u huold hcontrol hnode hpath
  keyed := h.keyed
  active_lt := h.active_lt

theorem WellScoped.declare (h : WellScoped part isControl scopes loops)
    {w : LoopWindow Key Node Branch Part} (hcontrol : isControl w.node)
    (howner : exists s, s ∈ scopes ∧ s.key = w.key ∧ s.node = w.node ∧ s.branch = w.branch ∧
      s.path = w.path)
    (hfresh : forall v, v ∈ loops -> v.key ≠ w.key) (hactive : w.active = []) :
    WellScoped part isControl scopes (insert w loops) where
  enclosed := by
    intro s hs outer p hleading
    rcases h.enclosed s hs outer p hleading with ⟨v, hv, hrest⟩
    exact ⟨v, Set.mem_insert_of_mem w hv, hrest⟩
  owned := by
    intro v hv
    rcases Set.mem_insert_iff.mp hv with rfl | hv
    · exact howner
    · exact h.owned v hv
  controls := by
    intro v hv
    rcases Set.mem_insert_iff.mp hv with rfl | hv
    · exact hcontrol
    · exact h.controls v hv
  unique := h.unique
  keyed := by
    intro v hv u hu hkey
    rcases Set.mem_insert_iff.mp hv with rfl | hvold
    · rcases Set.mem_insert_iff.mp hu with rfl | huold
      · rfl
      · exact absurd hkey.symm (hfresh u huold)
    · rcases Set.mem_insert_iff.mp hu with rfl | huold
      · exact absurd hkey (hfresh v hvold)
      · exact h.keyed v hvold u huold hkey
  active_lt := by
    intro v hv ordinal hordinal
    rcases Set.mem_insert_iff.mp hv with rfl | hv
    · rw [hactive] at hordinal
      cases hordinal
    · exact h.active_lt v hv ordinal hordinal

/-- The window after it has admitted its next ordinals. -/
def LoopWindow.extend (window : LoopWindow Key Node Branch Part) (count : Nat) :
    LoopWindow Key Node Branch Part :=
  { window with
    next := window.next + count
    active := window.active ++ (List.range count).map fun offset => window.next + offset }

theorem LoopWindow.mem_extend_active {window : LoopWindow Key Node Branch Part}
    {count ordinal : Nat} :
    ordinal ∈ (window.extend count).active ↔
      ordinal ∈ window.active ∨ (window.next ≤ ordinal ∧ ordinal < window.next + count) := by
  simp only [LoopWindow.extend, List.mem_append, List.mem_map, List.mem_range]
  constructor
  · rintro (h | ⟨offset, hoffset, rfl⟩)
    · exact Or.inl h
    · exact Or.inr ⟨by omega, by omega⟩
  · rintro (h | ⟨hle, hlt⟩)
    · exact Or.inl h
    · exact Or.inr ⟨ordinal - window.next, by omega, by omega⟩

def replaceWindow (loops : Set (LoopWindow Key Node Branch Part))
    (window replacement : LoopWindow Key Node Branch Part) :
    Set (LoopWindow Key Node Branch Part) :=
  insert replacement { w | w ∈ loops ∧ w.key ≠ window.key }

theorem exists_replaceWindow_of_mem (h : WellScoped part isControl scopes loops)
    {w : LoopWindow Key Node Branch Part} (hw : w ∈ loops) (count : Nat)
    {v : LoopWindow Key Node Branch Part} (hv : v ∈ loops) :
    exists u, u ∈ replaceWindow loops w (w.extend count) ∧ u.key = v.key ∧ u.node = v.node ∧
      u.branch = v.branch ∧ u.path = v.path ∧ v.next ≤ u.next ∧
      (forall ordinal, ordinal ∈ u.active -> ordinal ∈ v.active ∨ v.next ≤ ordinal) ∧
      (forall ordinal, ordinal ∈ v.active -> ordinal ∈ u.active) := by
  by_cases hkey : v.key = w.key
  · have hvw : v = w := h.keyed v hv w hw hkey
    refine ⟨w.extend count, Set.mem_insert .., ?_⟩
    rw [hvw]
    refine ⟨rfl, rfl, rfl, rfl, Nat.le_add_right .., ?_, ?_⟩
    · intro ordinal hordinal
      rcases LoopWindow.mem_extend_active.mp hordinal with hold | ⟨hle, _⟩
      · exact Or.inl hold
      · exact Or.inr hle
    · intro ordinal hordinal
      exact LoopWindow.mem_extend_active.mpr (Or.inl hordinal)
  · exact ⟨v, Set.mem_insert_of_mem _ ⟨hv, hkey⟩, rfl, rfl, rfl, rfl, Nat.le_refl _,
      fun _ hordinal => Or.inl hordinal, fun _ hordinal => hordinal⟩

theorem mem_replaceWindow_cases {w replacement v : LoopWindow Key Node Branch Part}
    (hv : v ∈ replaceWindow loops w replacement) :
    v = replacement ∨ (v ∈ loops ∧ v.key ≠ w.key) :=
  Set.mem_insert_iff.mp hv

theorem WellScoped.extend (h : WellScoped part isControl scopes loops)
    {w : LoopWindow Key Node Branch Part} (hw : w ∈ loops) (count : Nat) :
    WellScoped part isControl scopes (replaceWindow loops w (w.extend count)) where
  enclosed := by
    intro s hs outer p hleading
    rcases h.enclosed s hs outer p hleading with ⟨v, hv, hpath, hbranch, n, hn, hlast⟩
    rcases exists_replaceWindow_of_mem h hw count hv with
      ⟨u, hu, _, hnode, hubranch, hupath, hnext, _⟩
    refine ⟨u, hu, hupath.trans hpath, hubranch ▸ hbranch, n, by omega, ?_⟩
    rw [hnode]
    exact hlast
  owned := by
    intro v hv
    rcases mem_replaceWindow_cases hv with rfl | ⟨hv, _⟩
    · exact h.owned w hw
    · exact h.owned v hv
  controls := by
    intro v hv
    rcases mem_replaceWindow_cases hv with rfl | ⟨hv, _⟩
    · exact h.controls w hw
    · exact h.controls v hv
  unique := h.unique
  keyed := by
    intro v hv u hu hkey
    rcases mem_replaceWindow_cases hv with rfl | ⟨hv, hvkey⟩
    · rcases mem_replaceWindow_cases hu with rfl | ⟨_, hukey⟩
      · rfl
      · exact absurd hkey.symm hukey
    · rcases mem_replaceWindow_cases hu with rfl | ⟨hu, _⟩
      · exact absurd hkey hvkey
      · exact h.keyed v hv u hu hkey
  active_lt := by
    intro v hv ordinal hordinal
    rcases mem_replaceWindow_cases hv with rfl | ⟨hv, _⟩
    · rcases LoopWindow.mem_extend_active.mp hordinal with hold | ⟨_, hlt⟩
      · have hlt := h.active_lt w hw ordinal hold
        change ordinal < w.next + count
        omega
      · exact hlt
    · exact h.active_lt v hv ordinal hordinal

/-!
## Dropping released iterations
-/

/-- Released iterations are admitted ordinals that are no longer active. -/
def AllReleased (loops : Set (LoopWindow Key Node Branch Part))
    (released : LoopWindow Key Node Branch Part -> Nat -> Prop) : Prop :=
  forall w ordinal, released w ordinal ->
    w ∈ loops ∧ ordinal < w.next ∧ ordinal ∉ w.active

/-- The path lies inside no released iteration. -/
def IsKept (part : Node -> Nat -> Part)
    (released : LoopWindow Key Node Branch Part -> Nat -> Prop) (path : List Part) : Prop :=
  forall w ordinal, released w ordinal -> ¬ w.iteration part ordinal <+: path

def keptScopes (part : Node -> Nat -> Part) (scopes : Set (StepScope Key Node Branch Part))
    (released : LoopWindow Key Node Branch Part -> Nat -> Prop) :
    Set (StepScope Key Node Branch Part) :=
  { s | s ∈ scopes ∧ IsKept part released s.path }

def keptWindows (part : Node -> Nat -> Part) (loops : Set (LoopWindow Key Node Branch Part))
    (released : LoopWindow Key Node Branch Part -> Nat -> Prop) :
    Set (LoopWindow Key Node Branch Part) :=
  { w | w ∈ loops ∧ IsKept part released w.path }

variable {released : LoopWindow Key Node Branch Part -> Nat -> Prop}

theorem IsKept.of_prefix {inner outer : List Part} (h : IsKept part released inner)
    (hleading : outer <+: inner) : IsKept part released outer := by
  intro w ordinal hreleased hcover
  exact h w ordinal hreleased (hcover.trans hleading)

theorem WellScoped.prune (h : WellScoped part isControl scopes loops) :
    WellScoped part isControl (keptScopes part scopes released)
      (keptWindows part loops released) where
  enclosed := by
    intro s hs outer p hleading
    rcases h.enclosed s hs.left outer p hleading with ⟨w, hw, hpath, hrest⟩
    have hkept : IsKept part released w.path := by
      apply hs.right.of_prefix
      rw [hpath]
      exact (List.prefix_append outer [p]).trans hleading
    exact ⟨w, ⟨hw, hkept⟩, hpath, hrest⟩
  owned := by
    intro w hw
    rcases h.owned w hw.left with ⟨s, hs, hkey, hnode, hbranch, hpath⟩
    exact ⟨s, ⟨hs, hpath ▸ hw.right⟩, hkey, hnode, hbranch, hpath⟩
  controls := by
    intro w hw
    exact h.controls w hw.left
  unique := by
    intro s hs t ht
    exact h.unique s hs.left t ht.left
  keyed := by
    intro w hw v hv
    exact h.keyed w hw.left v hv.left
  active_lt := by
    intro w hw
    exact h.active_lt w hw.left

/-- The outermost released iteration around a released one belongs to a kept window. -/
theorem exists_kept_cover (part : Node -> Nat -> Part) (hreleased : AllReleased loops released) :
    forall (length : Nat) (w : LoopWindow Key Node Branch Part) (ordinal : Nat),
      w.path.length ≤ length -> released w ordinal ->
      exists v n, v ∈ keptWindows part loops released ∧ released v n ∧
        v.iteration part n <+: w.iteration part ordinal := by
  intro length
  induction length with
  | zero =>
      intro w ordinal hlength hw
      refine ⟨w, ordinal, ⟨(hreleased w ordinal hw).left, ?_⟩, hw, List.prefix_refl _⟩
      intro v n _ hcover
      have hle := hcover.length_le
      simp [LoopWindow.iteration] at hle
      omega
  | succ length ih =>
      intro w ordinal hlength hw
      by_cases hkept : IsKept part released w.path
      · exact ⟨w, ordinal, ⟨(hreleased w ordinal hw).left, hkept⟩, hw, List.prefix_refl _⟩
      · simp only [IsKept, not_forall, not_not] at hkept
        rcases hkept with ⟨v, n, hv, hcover⟩
        have hle := hcover.length_le
        have hshort : v.path.length ≤ length := by
          simp [LoopWindow.iteration] at hle
          omega
        rcases ih v n hshort hv with ⟨u, m, hu, hum, huv⟩
        refine ⟨u, m, hu, hum, huv.trans (hcover.trans ?_)⟩
        exact List.prefix_append ..

end

end Library
end Pertexo
