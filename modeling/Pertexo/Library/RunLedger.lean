import Pertexo.Library.LoopScopes

/-!
# Ledgers of admitted iterations

## Entries

An entry names the loop by its step and its enclosing iterations, and the
admitted ordinal. The ordinals of one loop are read off the log in order.
-/

namespace Pertexo
namespace Library

structure IterationAdmission (Node Part : Type) where
  node : Node
  path : List Part
  ordinal : Nat
deriving DecidableEq, Repr

section

variable {Key Node Branch Part : Type} [DecidableEq Node] [DecidableEq Part]

def ordinalsOf (log : List (IterationAdmission Node Part)) (node : Node) (path : List Part) :
    List Nat :=
  (log.filter fun entry => decide (entry.node = node ∧ entry.path = path)).map
    IterationAdmission.ordinal

def LoopWindow.admissions (window : LoopWindow Key Node Branch Part) (count : Nat) :
    List (IterationAdmission Node Part) :=
  (List.range count).map fun offset =>
    { node := window.node, path := window.path, ordinal := window.next + offset }

theorem ordinalsOf_append (log more : List (IterationAdmission Node Part)) (node : Node)
    (path : List Part) :
    ordinalsOf (log ++ more) node path = ordinalsOf log node path ++ ordinalsOf more node path := by
  rw [ordinalsOf, List.filter_append, List.map_append]
  rfl

theorem mem_ordinalsOf {log : List (IterationAdmission Node Part)} {node : Node}
    {path : List Part} {ordinal : Nat} :
    ordinal ∈ ordinalsOf log node path ↔
      { node := node, path := path, ordinal := ordinal } ∈ log := by
  unfold ordinalsOf
  rw [List.mem_map]
  constructor
  · rintro ⟨entry, hentry, rfl⟩
    rcases List.mem_filter.mp hentry with ⟨hmem, hsame⟩
    rcases of_decide_eq_true hsame with ⟨rfl, rfl⟩
    exact hmem
  · intro hmem
    exact ⟨_, List.mem_filter.mpr ⟨hmem, by simp⟩, rfl⟩

theorem ordinalsOf_admissions_self (window : LoopWindow Key Node Branch Part) (count : Nat) :
    ordinalsOf (window.admissions count) window.node window.path =
      (List.range count).map fun offset => window.next + offset := by
  unfold ordinalsOf LoopWindow.admissions
  rw [List.filter_eq_self.mpr]
  · rw [List.map_map]
    rfl
  · intro entry hentry
    rcases List.mem_map.mp hentry with ⟨_, _, rfl⟩
    simp

theorem ordinalsOf_admissions_of_ne {window : LoopWindow Key Node Branch Part} {count : Nat}
    {node : Node} {path : List Part} (h : ¬ (window.node = node ∧ window.path = path)) :
    ordinalsOf (window.admissions count) node path = [] := by
  unfold ordinalsOf LoopWindow.admissions
  rw [List.filter_eq_nil_iff.mpr]
  · rfl
  · intro entry hentry
    rcases List.mem_map.mp hentry with ⟨_, _, rfl⟩
    simpa using h

theorem range_append_admissions (first count : Nat) :
    List.range first ++ (List.range count).map (fun offset => first + offset) =
      List.range (first + count) := by
  rw [List.range_add]

/-!
## Closed paths

A path is closed once it lies in an iteration that its loop has released and no
step is left in. No step starts on a closed path again.
-/

variable {part : Node -> Nat -> Part} {isControl : Node -> Prop}
  {scopes : Set (StepScope Key Node Branch Part)}
  {loops : Set (LoopWindow Key Node Branch Part)}

structure Closes (part : Node -> Nat -> Part) (scopes : Set (StepScope Key Node Branch Part))
    (loops : Set (LoopWindow Key Node Branch Part)) (path : List Part)
    (window : LoopWindow Key Node Branch Part) (ordinal : Nat) : Prop where
  mem : window ∈ loops
  lt : ordinal < window.next
  inactive : ordinal ∉ window.active
  covers : window.iteration part ordinal <+: path
  empty : forall s, s ∈ scopes -> ¬ window.iteration part ordinal <+: s.path

def IsClosed (part : Node -> Nat -> Part) (scopes : Set (StepScope Key Node Branch Part))
    (loops : Set (LoopWindow Key Node Branch Part)) (path : List Part) : Prop :=
  exists window ordinal, Closes part scopes loops path window ordinal

omit [DecidableEq Node] [DecidableEq Part] in
theorem not_covers_of_isOpen (hpart : Function.Injective2 part)
    (h : WellScoped part isControl scopes loops) {branch : List Branch}
    {closed path : List Part} {window : LoopWindow Key Node Branch Part} {ordinal : Nat}
    (hcloses : Closes part scopes loops closed window ordinal)
    (hopen : IsOpen part scopes loops branch path) :
    ¬ window.iteration part ordinal <+: path := by
  intro hcover
  rcases hopen with hroot | ⟨s, hs, hpath, _⟩ | ⟨v, hv, _, n, hn, hpath⟩
  · rw [hroot, List.prefix_nil] at hcover
    simp [LoopWindow.iteration] at hcover
  · exact hcloses.empty s hs (hpath ▸ hcover)
  · rw [hpath] at hcover
    rcases iteration_prefix_cases hpart hcover with ⟨hwpath, hnode, rfl⟩ | hinner
    · have hwv : window = v := h.window_eq hcloses.mem hv hnode hwpath
      exact hcloses.inactive (hwv ▸ hn)
    · rcases h.owned v hv with ⟨s, hs, _, _, _, hspath⟩
      exact hcloses.empty s hs (hspath ▸ hinner)

section

variable {path : List Part}

omit [DecidableEq Node] [DecidableEq Part]

theorem IsClosed.settle (h : IsClosed part scopes loops path)
    {narrow : Set (LoopWindow Key Node Branch Part)} (hsettles : Settles narrow loops) :
    IsClosed part scopes narrow path := by
  rcases h with ⟨w, n, hcloses⟩
  rcases hsettles.narrowed w hcloses.mem with ⟨v, hv, hvw⟩
  refine ⟨v, n, hv, hvw.next ▸ hcloses.lt, ?_, ?_, ?_⟩
  · intro hactive
    exact hcloses.inactive (hvw.active n hactive)
  · rw [hvw.iteration]
    exact hcloses.covers
  · intro s hs
    rw [hvw.iteration]
    exact hcloses.empty s hs

theorem IsClosed.start (hpart : Function.Injective2 part)
    (hscoped : WellScoped part isControl scopes loops) (h : IsClosed part scopes loops path)
    {s : StepScope Key Node Branch Part} (hopen : IsOpen part scopes loops s.branch s.path) :
    IsClosed part (insert s scopes) loops path := by
  rcases h with ⟨w, n, hcloses⟩
  refine ⟨w, n, hcloses.mem, hcloses.lt, hcloses.inactive, hcloses.covers, ?_⟩
  intro t ht
  rcases Set.mem_insert_iff.mp ht with rfl | htold
  · exact not_covers_of_isOpen hpart hscoped hcloses hopen
  · exact hcloses.empty t htold

theorem IsClosed.declare (h : IsClosed part scopes loops path)
    (w : LoopWindow Key Node Branch Part) : IsClosed part scopes (insert w loops) path := by
  rcases h with ⟨v, n, hcloses⟩
  exact ⟨v, n, Set.mem_insert_of_mem w hcloses.mem, hcloses.lt, hcloses.inactive,
    hcloses.covers, hcloses.empty⟩

theorem IsClosed.extend (hscoped : WellScoped part isControl scopes loops)
    (h : IsClosed part scopes loops path) {w : LoopWindow Key Node Branch Part} (hw : w ∈ loops)
    (count : Nat) : IsClosed part scopes (replaceWindow loops w (w.extend count)) path := by
  rcases h with ⟨v, n, hcloses⟩
  rcases exists_replaceWindow_of_mem hscoped hw count hcloses.mem with
    ⟨u, hu, _, hunode, _, hupath, hnext, hactive, _⟩
  have hiteration : u.iteration part n = v.iteration part n := by
    rw [LoopWindow.iteration, LoopWindow.iteration, hupath, hunode]
  refine ⟨u, n, hu, Nat.lt_of_lt_of_le hcloses.lt hnext, ?_, ?_, ?_⟩
  · intro hmem
    rcases hactive n hmem with hvactive | hle
    · exact hcloses.inactive hvactive
    · exact absurd hcloses.lt (Nat.not_lt.mpr hle)
  · rw [hiteration]
    exact hcloses.covers
  · intro s hs
    rw [hiteration]
    exact hcloses.empty s hs

variable {released : LoopWindow Key Node Branch Part -> Nat -> Prop}

/-- Pruning closes the paths inside the released iterations. -/
theorem isClosed_of_not_isKept (hreleased : AllReleased loops released)
    (h : ¬ IsKept part released path) :
    IsClosed part (keptScopes part scopes released) (keptWindows part loops released) path := by
  simp only [IsKept, not_forall, not_not] at h
  rcases h with ⟨w, ordinal, hw, hcover⟩
  rcases exists_kept_cover part hreleased w.path.length w ordinal (Nat.le_refl _) hw with
    ⟨v, n, hkept, hv, hleading⟩
  rcases hreleased v n hv with ⟨_, hlt, hinactive⟩
  refine ⟨v, n, hkept, hlt, hinactive, hleading.trans hcover, ?_⟩
  intro s hs
  exact hs.right v n hv

theorem IsClosed.prune (h : IsClosed part scopes loops path)
    (hreleased : AllReleased loops released) :
    IsClosed part (keptScopes part scopes released) (keptWindows part loops released) path := by
  rcases h with ⟨w, n, hcloses⟩
  by_cases hkept : IsKept part released w.path
  · refine ⟨w, n, ⟨hcloses.mem, hkept⟩, hcloses.lt, hcloses.inactive, hcloses.covers, ?_⟩
    intro s hs
    exact hcloses.empty s hs.left
  · apply isClosed_of_not_isKept hreleased
    intro hpath
    apply hkept
    intro v m hv hcover
    exact hpath v m hv (hcover.trans ((List.prefix_append ..).trans hcloses.covers))

end

/-!
## Recorded ledgers

The log of every loop is an initial segment of the ordinals: exactly the
admitted ones as long as the loop is kept, and closed afterwards.
-/

/-- The admitted iterations of a run, and the paths that all its steps have left. -/
structure RunLedger (Node Part : Type) where
  admissions : List (IterationAdmission Node Part)
  left : Set (List Part)

def RunLedger.record (ledger : RunLedger Node Part)
    (admissions : List (IterationAdmission Node Part)) : RunLedger Node Part :=
  { ledger with admissions := ledger.admissions ++ admissions }

def RunLedger.leave (ledger : RunLedger Node Part) (paths : Set (List Part)) :
    RunLedger Node Part :=
  { ledger with left := ledger.left ∪ paths }

omit [DecidableEq Node] [DecidableEq Part] in
@[simp] theorem RunLedger.record_nil (ledger : RunLedger Node Part) :
    ledger.record [] = ledger := by
  rw [RunLedger.record, List.append_nil]

omit [DecidableEq Node] [DecidableEq Part] in
@[simp] theorem RunLedger.record_record (ledger : RunLedger Node Part)
    (admissions more : List (IterationAdmission Node Part)) :
    (ledger.record admissions).record more = ledger.record (admissions ++ more) := by
  rw [RunLedger.record, RunLedger.record, RunLedger.record, List.append_assoc]

structure Recorded (part : Node -> Nat -> Part) (scopes : Set (StepScope Key Node Branch Part))
    (loops : Set (LoopWindow Key Node Branch Part)) (ledger : RunLedger Node Part) : Prop where
  ordered : forall node path, exists count,
    ordinalsOf ledger.admissions node path = List.range count
  current : forall w, w ∈ loops -> ordinalsOf ledger.admissions w.node w.path = List.range w.next
  accounted : forall entry, entry ∈ ledger.admissions ->
    (exists w, w ∈ loops ∧ w.node = entry.node ∧ w.path = entry.path) ∨
      IsClosed part scopes loops entry.path
  closed : forall path, path ∈ ledger.left -> IsClosed part scopes loops path

theorem recorded_empty :
    Recorded part scopes (∅ : Set (LoopWindow Key Node Branch Part))
      { admissions := [], left := ∅ } where
  ordered := fun _ _ => ⟨0, rfl⟩
  current := by
    intro w hw
    cases hw
  accounted := by
    intro entry hentry
    cases hentry
  closed := by
    intro path hpath
    cases hpath

variable {ledger : RunLedger Node Part}

theorem Recorded.leave (h : Recorded part scopes loops ledger) {paths : Set (List Part)}
    (hclosed : forall path, path ∈ paths -> IsClosed part scopes loops path) :
    Recorded part scopes loops (ledger.leave paths) where
  ordered := h.ordered
  current := h.current
  accounted := h.accounted
  closed := by
    intro path hpath
    rcases hpath with hold | hnew
    · exact h.closed path hold
    · exact hclosed path hnew

theorem Recorded.settle (h : Recorded part scopes loops ledger)
    {narrow : Set (LoopWindow Key Node Branch Part)} (hsettles : Settles narrow loops) :
    Recorded part scopes narrow ledger where
  ordered := h.ordered
  current := by
    intro v hv
    rcases hsettles.narrows v hv with ⟨w, hw, hvw⟩
    rw [hvw.node, hvw.path, hvw.next]
    exact h.current w hw
  accounted := by
    intro entry hentry
    rcases h.accounted entry hentry with ⟨w, hw, hnode, hpath⟩ | hclosed
    · rcases hsettles.narrowed w hw with ⟨v, hv, hvw⟩
      exact Or.inl ⟨v, hv, hvw.node.trans hnode, hvw.path.trans hpath⟩
    · exact Or.inr (hclosed.settle hsettles)
  closed := by
    intro path hpath
    exact (h.closed path hpath).settle hsettles

theorem Recorded.start (hpart : Function.Injective2 part)
    (hscoped : WellScoped part isControl scopes loops) (h : Recorded part scopes loops ledger)
    {s : StepScope Key Node Branch Part} (hopen : IsOpen part scopes loops s.branch s.path) :
    Recorded part (insert s scopes) loops ledger where
  ordered := h.ordered
  current := h.current
  accounted := by
    intro entry hentry
    rcases h.accounted entry hentry with hkept | hclosed
    · exact Or.inl hkept
    · exact Or.inr (hclosed.start hpart hscoped hopen)
  closed := by
    intro path hpath
    exact (h.closed path hpath).start hpart hscoped hopen

/-- A loop about to be declared has no entry, since its control step is still there. -/
theorem Recorded.ordinalsOf_eq_nil (hscoped : WellScoped part isControl scopes loops)
    (h : Recorded part scopes loops ledger) {w : LoopWindow Key Node Branch Part}
    (howner : exists s, s ∈ scopes ∧ s.key = w.key ∧ s.node = w.node ∧ s.branch = w.branch ∧
      s.path = w.path)
    (hfresh : forall v, v ∈ loops -> v.key ≠ w.key) :
    ordinalsOf ledger.admissions w.node w.path = [] := by
  rcases howner with ⟨s, hs, hskey, hsnode, _, hspath⟩
  rw [List.eq_nil_iff_forall_not_mem]
  intro ordinal hmem
  rcases h.accounted _ (mem_ordinalsOf.mp hmem) with ⟨v, hv, hnode, hpath⟩ | ⟨v, n, hcloses⟩
  · rcases hscoped.owned v hv with ⟨t, ht, htkey, htnode, _, htpath⟩
    have hkey : t.key = s.key := by
      apply hscoped.unique t ht s hs
      · rw [htnode]
        exact hscoped.controls v hv
      · rw [htnode, hnode, hsnode]
      · rw [htpath, hpath, hspath]
    apply hfresh v hv
    rw [← htkey, hkey, hskey]
  · exact hcloses.empty s hs (hspath ▸ hcloses.covers)

theorem Recorded.declare (hscoped : WellScoped part isControl scopes loops)
    (h : Recorded part scopes loops ledger) {w : LoopWindow Key Node Branch Part}
    (howner : exists s, s ∈ scopes ∧ s.key = w.key ∧ s.node = w.node ∧ s.branch = w.branch ∧
      s.path = w.path)
    (hfresh : forall v, v ∈ loops -> v.key ≠ w.key) (hnext : w.next = 0) :
    Recorded part scopes (insert w loops) ledger where
  ordered := h.ordered
  current := by
    intro v hv
    rcases Set.mem_insert_iff.mp hv with rfl | hvold
    · rw [h.ordinalsOf_eq_nil hscoped howner hfresh, hnext]
      rfl
    · exact h.current v hvold
  accounted := by
    intro entry hentry
    rcases h.accounted entry hentry with ⟨v, hv, hrest⟩ | hclosed
    · exact Or.inl ⟨v, Set.mem_insert_of_mem w hv, hrest⟩
    · exact Or.inr (hclosed.declare w)
  closed := by
    intro path hpath
    exact (h.closed path hpath).declare w

theorem ordinalsOf_extend (h : Recorded part scopes loops ledger)
    {w : LoopWindow Key Node Branch Part} (hw : w ∈ loops) (count : Nat) :
    ordinalsOf (ledger.record (w.admissions count)).admissions w.node w.path =
      List.range (w.next + count) := by
  rw [RunLedger.record, ordinalsOf_append, ordinalsOf_admissions_self, h.current w hw,
    range_append_admissions]

theorem Recorded.extend (hscoped : WellScoped part isControl scopes loops)
    (h : Recorded part scopes loops ledger) {w : LoopWindow Key Node Branch Part} (hw : w ∈ loops)
    (count : Nat) :
    Recorded part scopes (replaceWindow loops w (w.extend count))
      (ledger.record (w.admissions count)) where
  ordered := by
    intro node path
    by_cases hsame : w.node = node ∧ w.path = path
    · rcases hsame with ⟨rfl, rfl⟩
      exact ⟨_, ordinalsOf_extend h hw count⟩
    · rw [RunLedger.record, ordinalsOf_append, ordinalsOf_admissions_of_ne hsame, List.append_nil]
      exact h.ordered node path
  current := by
    intro v hv
    rcases mem_replaceWindow_cases hv with rfl | ⟨hvold, hkey⟩
    · exact ordinalsOf_extend h hw count
    · have hother : ¬ (w.node = v.node ∧ w.path = v.path) := by
        rintro ⟨hnode, hpath⟩
        exact hkey (hscoped.window_eq hw hvold hnode hpath ▸ rfl)
      rw [RunLedger.record, ordinalsOf_append, ordinalsOf_admissions_of_ne hother, List.append_nil]
      exact h.current v hvold
  accounted := by
    intro entry hentry
    rcases List.mem_append.mp hentry with hold | hnew
    · rcases h.accounted entry hold with ⟨v, hv, hnode, hpath⟩ | hclosed
      · rcases exists_replaceWindow_of_mem hscoped hw count hv with
          ⟨u, hu, _, hunode, _, hupath, _⟩
        exact Or.inl ⟨u, hu, hunode.trans hnode, hupath.trans hpath⟩
      · exact Or.inr (hclosed.extend hscoped hw count)
    · rcases List.mem_map.mp hnew with ⟨offset, _, rfl⟩
      exact Or.inl ⟨w.extend count, Set.mem_insert .., rfl, rfl⟩
  closed := by
    intro path hpath
    exact (h.closed path hpath).extend hscoped hw count

theorem Recorded.prune {released : LoopWindow Key Node Branch Part -> Nat -> Prop}
    (h : Recorded part scopes loops ledger) (hreleased : AllReleased loops released) :
    Recorded part (keptScopes part scopes released) (keptWindows part loops released) ledger where
  ordered := h.ordered
  current := by
    intro w hw
    exact h.current w hw.left
  accounted := by
    intro entry hentry
    rcases h.accounted entry hentry with ⟨w, hw, hnode, hpath⟩ | hclosed
    · by_cases hkept : IsKept part released w.path
      · exact Or.inl ⟨w, ⟨hw, hkept⟩, hnode, hpath⟩
      · exact Or.inr (hpath ▸ isClosed_of_not_isKept hreleased hkept)
    · exact Or.inr (hclosed.prune hreleased)
  closed := by
    intro path hpath
    exact (h.closed path hpath).prune hreleased

end

end Library
end Pertexo
