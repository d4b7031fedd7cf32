import Pertexo.Triggers.ThrottledEvents

/-!
# Spacing of deduplicated events

## Starts and their readings of the clock
-/

namespace Pertexo
namespace Triggers

open Library

/-- A run with the milliseconds at which its transaction has read the clock. -/
structure EventStart (Uuid Hash : Type) where
  run : CoordinatedRun Uuid Hash
  readAt : Nat

section

variable {Uuid Hash : Type} [LinearOrder Uuid]
variable {policyHash : EventCoordinationPolicy -> Hash}
variable {db loaded db' : CoordinationDatabase Uuid Hash}
variable {starts : List (EventStart Uuid Hash)} {now : Nat} {hash : Hash} {width : Nat}

/-- The starts of a key are a window apart. -/
def AreSpaced (hash : Hash) (width : Nat) (starts : List (EventStart Uuid Hash)) : Prop :=
  starts.Pairwise fun earlier later => earlier.run.key = later.run.key ->
    earlier.run.key.policyHash = hash -> earlier.readAt + width ≤ later.readAt

/-- What a window knows of the starts of its key, whatever admissions were refused. -/
structure KnowsStarts (hash : Hash) (width : Nat) (db : CoordinationDatabase Uuid Hash)
    (starts : List (EventStart Uuid Hash)) (now : Nat) : Prop where
  expires : forall row, row ∈ db.windows -> row.key.policyHash = hash ->
    row.expiresAt = row.windowStartedAt + width
  opened : forall row, row ∈ db.windows -> row.key.policyHash = hash ->
    row.windowStartedAt ≤ now
  charged : forall row, row ∈ db.windows -> row.key.policyHash = hash -> 0 < row.usedCount ->
    exists start, start ∈ starts ∧ start.run.key = row.key ∧ row.windowStartedAt ≤ start.readAt
  started : forall start, start ∈ starts -> start.readAt ≤ now

def PrecedesRow (width : Nat) (start : EventStart Uuid Hash) (row : EventWindowRow Uuid Hash) :
    Prop :=
  start.readAt + width ≤ row.windowStartedAt ∨
    (0 < row.usedCount ∧ start.readAt ≤ row.windowStartedAt)

/-- The starts are spaced, and the windows begin where the next start may be. -/
structure SpacesStarts (hash : Hash) (width : Nat) (db : CoordinationDatabase Uuid Hash)
    (starts : List (EventStart Uuid Hash)) (now : Nat) : Prop where
  spaced : AreSpaced hash width starts
  before : forall row, row ∈ db.windows -> row.key.policyHash = hash -> forall start,
    start ∈ starts -> start.run.key = row.key -> PrecedesRow width start row
  gone : forall start, start ∈ starts -> start.run.key.policyHash = hash ->
    (forall row, row ∈ db.windows -> row.key ≠ start.run.key) -> start.readAt + width ≤ now

omit [LinearOrder Uuid] in
theorem KnowsStarts.tick (h : KnowsStarts hash width db starts now) {later : Nat}
    (hlater : now ≤ later) (hwindows : db'.windows = db.windows) :
    KnowsStarts hash width db' starts later where
  expires := by
    rw [hwindows]
    exact h.expires
  opened := by
    rw [hwindows]
    exact fun row hrow hhash => (h.opened row hrow hhash).trans hlater
  charged := by
    rw [hwindows]
    exact h.charged
  started := fun start hstart => (h.started start hstart).trans hlater

omit [LinearOrder Uuid] in
theorem SpacesStarts.tick (h : SpacesStarts hash width db starts now) {later : Nat}
    (hlater : now ≤ later) (hwindows : db'.windows = db.windows) :
    SpacesStarts hash width db' starts later where
  spaced := h.spaced
  before := by
    rw [hwindows]
    exact h.before
  gone := by
    rw [hwindows]
    exact fun start hstart hhash hnone => (h.gone start hstart hhash hnone).trans hlater

/-!
## Opening a window
-/

omit [LinearOrder Uuid] in
theorem KnowsStarts.insertWindow (h : KnowsStarts hash width db starts now)
    {row : EventWindowRow Uuid Hash} {seconds : Nat} (hfresh : IsFreshRow db row now seconds)
    (hwidth : row.key.policyHash = hash -> seconds * 1000 = width)
    (hwindows : db'.windows = db.windows ++ [row]) : KnowsStarts hash width db' starts now where
  expires := by
    intro other hother hhash
    rw [hwindows] at hother
    rcases List.mem_append.mp hother with hold | hnew
    · exact h.expires other hold hhash
    · rw [List.mem_singleton.mp hnew] at hhash ⊢
      rw [hfresh.expiresAt, hfresh.windowStartedAt, hwidth hhash]
  opened := by
    intro other hother hhash
    rw [hwindows] at hother
    rcases List.mem_append.mp hother with hold | hnew
    · exact h.opened other hold hhash
    · rw [List.mem_singleton.mp hnew, hfresh.windowStartedAt]
  charged := by
    intro other hother hhash hused
    rw [hwindows] at hother
    rcases List.mem_append.mp hother with hold | hnew
    · exact h.charged other hold hhash hused
    · rw [List.mem_singleton.mp hnew, hfresh.usedCount] at hused
      exact absurd hused (Nat.lt_irrefl 0)
  started := h.started

omit [LinearOrder Uuid] in
theorem SpacesStarts.insertWindow (h : SpacesStarts hash width db starts now)
    {row : EventWindowRow Uuid Hash} {seconds : Nat} (hfresh : IsFreshRow db row now seconds)
    (hwindows : db'.windows = db.windows ++ [row]) : SpacesStarts hash width db' starts now where
  spaced := h.spaced
  before := by
    intro other hother hhash start hstart hkey
    rw [hwindows] at hother
    rcases List.mem_append.mp hother with hold | hnew
    · exact h.before other hold hhash start hstart hkey
    · rw [List.mem_singleton.mp hnew] at hhash hkey ⊢
      apply Or.inl
      rw [hfresh.windowStartedAt]
      apply h.gone start hstart (hkey ▸ hhash)
      intro held hheld hsame
      exact hfresh.noKey held hheld (hsame.trans hkey)
  gone := by
    intro start hstart hhash hnone
    apply h.gone start hstart hhash
    intro held hheld
    apply hnone held
    rw [hwindows]
    exact List.mem_append_left _ hheld

/-!
## Charging a window
-/

structure IsCharge (db db' : CoordinationDatabase Uuid Hash) (row : EventWindowRow Uuid Hash)
    (policy : EventCoordinationPolicy) (window : EventCoordinationWindow)
    (start : EventStart Uuid Hash) (now : Nat) : Prop where
  rows : WindowRows db.windows
  row_mem : row ∈ db.windows
  windows : db'.windows = (chargeEventWindow db row.id policy window).windows
  key : start.run.key = row.key
  readAt : start.readAt = now

variable {row : EventWindowRow Uuid Hash} {policy : EventCoordinationPolicy}
variable {window : EventCoordinationWindow} {start : EventStart Uuid Hash}

theorem IsCharge.cases (h : IsCharge db db' row policy window start now)
    {charged : EventWindowRow Uuid Hash} (hcharged : charged ∈ db'.windows) :
    (charged ∈ db.windows ∧ charged.key ≠ row.key) ∨
      (charged.key = row.key ∧ charged.windowStartedAt = window.startedAt ∧
        charged.usedCount = window.used + 1 ∧
        charged.expiresAt = window.startedAt + policy.seconds * 1000) := by
  rw [h.windows] at hcharged
  rcases mem_chargeEventWindow hcharged with ⟨old, hold, _, hkey, hsame | hchanged⟩
  · apply Or.inl
    rw [hsame.right]
    refine ⟨hold, ?_⟩
    intro heq
    exact hsame.left (congrArg EventWindowRow.id (h.rows.eq_of_key hold h.row_mem heq))
  · apply Or.inr
    have hrow := h.rows.eq_of_id hold h.row_mem hchanged.left
    exact ⟨hkey.trans (congrArg EventWindowRow.key hrow), hchanged.right⟩

theorem KnowsStarts.charge (h : KnowsStarts hash width db starts now)
    (hcharge : IsCharge db db' row policy window start now)
    (hwidth : row.key.policyHash = hash -> policy.seconds * 1000 = width)
    (hwindow : row.key.policyHash = hash -> window.startedAt ≤ now) :
    KnowsStarts hash width db' (starts ++ [start]) now where
  expires := by
    intro charged hmem hhash
    rcases hcharge.cases hmem with ⟨hold, _⟩ | ⟨hkey, hstarted, _, hexpires⟩
    · exact h.expires charged hold hhash
    · rw [hexpires, hstarted, hwidth (hkey ▸ hhash)]
  opened := by
    intro charged hmem hhash
    rcases hcharge.cases hmem with ⟨hold, _⟩ | ⟨hkey, hstarted, _⟩
    · exact h.opened charged hold hhash
    · rw [hstarted]
      exact hwindow (hkey ▸ hhash)
  charged := by
    intro charged hmem hhash hused
    rcases hcharge.cases hmem with ⟨hold, _⟩ | ⟨hkey, hstarted, _⟩
    · rcases h.charged charged hold hhash hused with ⟨other, hother, hrest⟩
      exact ⟨other, List.mem_append_left _ hother, hrest⟩
    · refine ⟨start, List.mem_append_right _ (List.mem_singleton_self _), ?_, ?_⟩
      · exact hcharge.key.trans hkey.symm
      · rw [hstarted, hcharge.readAt]
        exact hwindow (hkey ▸ hhash)
  started := by
    intro other hother
    rcases List.mem_append.mp hother with hold | hnew
    · exact h.started other hold
    · rw [List.mem_singleton.mp hnew, hcharge.readAt]

def AllowsStart (width : Nat) (row : EventWindowRow Uuid Hash) (now : Nat) : Prop :=
  row.windowStartedAt + width ≤ now ∨ (row.usedCount = 0 ∧ row.windowStartedAt = now)

theorem SpacesStarts.charge (h : SpacesStarts hash width db starts now)
    (hcharge : IsCharge db db' row policy window start now)
    (hallows : row.key.policyHash = hash ->
      AllowsStart width row now ∧ window.startedAt = now) :
    SpacesStarts hash width db' (starts ++ [start]) now := by
  have hearlier : row.key.policyHash = hash -> forall other, other ∈ starts ->
      other.run.key = row.key -> other.readAt + width ≤ now := by
    intro hhash other hother hkey
    rcases h.before row hcharge.row_mem hhash other hother hkey with hbefore | ⟨hused, hle⟩
    · rcases (hallows hhash).left with hpassed | ⟨_, hbegins⟩
      · omega
      · omega
    · rcases (hallows hhash).left with hpassed | ⟨hzero, _⟩
      · omega
      · omega
  constructor
  · apply List.pairwise_append.mpr
    refine ⟨h.spaced, List.pairwise_singleton _ _, ?_⟩
    intro other hother last hlast hkey hhash
    rw [List.mem_singleton.mp hlast, hcharge.key] at hkey
    rw [List.mem_singleton.mp hlast, hcharge.readAt]
    exact hearlier (hkey ▸ hhash) other hother hkey
  · intro charged hmem hhash other hother hkey
    rcases hcharge.cases hmem with ⟨hold, hne⟩ | ⟨hrow, hstarted, hused, _⟩
    · rcases List.mem_append.mp hother with hstart | hnew
      · exact h.before charged hold hhash other hstart hkey
      · rw [List.mem_singleton.mp hnew, hcharge.key] at hkey
        exact absurd hkey.symm hne
    · have hallowed := hallows (hrow ▸ hhash)
      rcases List.mem_append.mp hother with hstart | hnew
      · apply Or.inl
        rw [hstarted, hallowed.right]
        exact hearlier (hrow ▸ hhash) other hstart (hkey.trans hrow)
      · apply Or.inr
        rw [hstarted, hallowed.right, hused, List.mem_singleton.mp hnew, hcharge.readAt]
        exact ⟨Nat.succ_pos _, Nat.le_refl _⟩
  · intro other hother hhash hnone
    have hkept : forall old, old ∈ db.windows -> exists kept, kept ∈ db'.windows ∧
        kept.key = old.key := by
      intro old hold
      rcases exists_mem_chargeEventWindow row.id policy window hold with ⟨kept, hmem, _, hkey⟩
      rw [← hcharge.windows] at hmem
      exact ⟨kept, hmem, hkey⟩
    have hnoneBefore : forall old, old ∈ db.windows -> old.key ≠ other.run.key := by
      intro old hold hkey
      rcases hkept old hold with ⟨kept, hmem, hsame⟩
      exact hnone kept hmem (hsame.trans hkey)
    rcases List.mem_append.mp hother with hstart | hnew
    · exact h.gone other hstart hhash hnoneBefore
    · rw [List.mem_singleton.mp hnew, hcharge.key] at hnoneBefore
      exact absurd rfl (hnoneBefore row hcharge.row_mem)

/-!
## Deleting a window
-/

structure DropsExpired (db db' : CoordinationDatabase Uuid Hash) (now : Nat) : Prop where
  subset : forall row, row ∈ db'.windows -> row ∈ db.windows
  expired : forall row, row ∈ db.windows -> row ∉ db'.windows -> row.expiresAt ≤ now

omit [LinearOrder Uuid] in
theorem KnowsStarts.drop (h : KnowsStarts hash width db starts now)
    (hdrops : DropsExpired db db' now) : KnowsStarts hash width db' starts now where
  expires := fun row hrow => h.expires row (hdrops.subset row hrow)
  opened := fun row hrow => h.opened row (hdrops.subset row hrow)
  charged := fun row hrow => h.charged row (hdrops.subset row hrow)
  started := h.started

omit [LinearOrder Uuid] in
theorem SpacesStarts.drop (h : SpacesStarts hash width db starts now)
    (hknows : KnowsStarts hash width db starts now) (hdrops : DropsExpired db db' now) :
    SpacesStarts hash width db' starts now where
  spaced := h.spaced
  before := fun row hrow => h.before row (hdrops.subset row hrow)
  gone := by
    intro start hstart hhash hnone
    by_cases hrow : exists row, row ∈ db.windows ∧ row.key = start.run.key
    · rcases hrow with ⟨row, hrow, hkey⟩
      have hexpired := hdrops.expired row hrow fun hkept => hnone row hkept hkey
      rw [hknows.expires row hrow (hkey ▸ hhash)] at hexpired
      rcases h.before row hrow (hkey ▸ hhash) start hstart hkey.symm with hbefore | ⟨_, hle⟩
      · omega
      · omega
    · exact h.gone start hstart hhash fun row hrow' hkey => hrow ⟨row, hrow', hkey⟩

/-!
## Effects of a transaction
-/

variable {fresh : Prop} {added : List (EventStart Uuid Hash)}

/-- What a transaction does to the windows, with the starts that it adds. A charge
allows the start only where the window is known to be fresh. -/
inductive Effect (hash : Hash) (width now : Nat) (fresh : Prop) :
    CoordinationDatabase Uuid Hash -> CoordinationDatabase Uuid Hash ->
    List (EventStart Uuid Hash) -> Prop where
  | quiet {db db' : CoordinationDatabase Uuid Hash} (hwindows : db'.windows = db.windows) :
      Effect hash width now fresh db db' []
  | opens {db db' : CoordinationDatabase Uuid Hash} {row : EventWindowRow Uuid Hash}
      {seconds : Nat} (hfresh : IsFreshRow db row now seconds)
      (hwidth : row.key.policyHash = hash -> seconds * 1000 = width)
      (hwindows : db'.windows = db.windows ++ [row]) : Effect hash width now fresh db db' []
  | charges {db db' : CoordinationDatabase Uuid Hash} {row : EventWindowRow Uuid Hash}
      {policy : EventCoordinationPolicy} {window : EventCoordinationWindow}
      {start : EventStart Uuid Hash} (hcharge : IsCharge db db' row policy window start now)
      (hwidth : row.key.policyHash = hash -> policy.seconds * 1000 = width)
      (hwindow : row.key.policyHash = hash ->
        window.startedAt = now ∨ window.startedAt = row.windowStartedAt)
      (hallows : fresh -> row.key.policyHash = hash ->
        AllowsStart width row now ∧ window.startedAt = now) :
      Effect hash width now fresh db db' [start]
  | drops {db db' : CoordinationDatabase Uuid Hash} (hdrops : DropsExpired db db' now) :
      Effect hash width now fresh db db' []
  | trans {db middle db' : CoordinationDatabase Uuid Hash}
      {left right : List (EventStart Uuid Hash)}
      (hleft : Effect hash width now fresh db middle left)
      (hright : Effect hash width now fresh middle db' right) :
      Effect hash width now fresh db db' (left ++ right)

theorem KnowsStarts.effect (h : KnowsStarts hash width db starts now)
    (heffect : Effect hash width now fresh db db' added) :
    KnowsStarts hash width db' (starts ++ added) now := by
  induction heffect generalizing starts with
  | quiet hwindows =>
      rw [List.append_nil]
      exact h.tick le_rfl hwindows
  | opens hfresh hwidth hwindows =>
      rw [List.append_nil]
      exact h.insertWindow hfresh hwidth hwindows
  | @charges db db' row _ _ _ hcharge hwidth hwindow _ =>
      apply h.charge hcharge hwidth
      intro hhash
      rcases hwindow hhash with hnow | hkept
      · exact Nat.le_of_eq hnow
      · rw [hkept]
        exact h.opened row hcharge.row_mem hhash
  | drops hdrops =>
      rw [List.append_nil]
      exact h.drop hdrops
  | trans _ _ ihleft ihright =>
      rw [← List.append_assoc]
      exact ihright (ihleft h)

theorem SpacesStarts.effect (h : SpacesStarts hash width db starts now)
    (hknows : KnowsStarts hash width db starts now) (hfresh : fresh)
    (heffect : Effect hash width now fresh db db' added) :
    SpacesStarts hash width db' (starts ++ added) now := by
  induction heffect generalizing starts with
  | quiet hwindows =>
      rw [List.append_nil]
      exact h.tick le_rfl hwindows
  | opens hrow _ hwindows =>
      rw [List.append_nil]
      exact h.insertWindow hrow hwindows
  | charges hcharge _ _ hallows => exact h.charge hcharge (hallows hfresh)
  | drops hdrops =>
      rw [List.append_nil]
      exact h.drop hknows hdrops
  | trans hleft _ ihleft ihright =>
      rw [← List.append_assoc]
      exact ihright (ihleft h hknows) (hknows.effect hleft)

end

end Triggers
end Pertexo
