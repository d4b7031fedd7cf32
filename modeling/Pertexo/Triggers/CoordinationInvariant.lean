import Pertexo.Library.CappedAdmission
import Pertexo.Triggers.EventTransactions

/-!
# What coordination keeps

## The invariant

The rows of a workspace are related to the runs that were started and to the
last reading of the clock.
-/

namespace Pertexo
namespace Triggers

open Library

section

variable {Uuid Hash : Type}

def CoordinatedRun.charge (run : CoordinatedRun Uuid Hash) : Charge (EventKey Uuid Hash) :=
  { key := run.key
    window := run.windowStartedAt }

def CoordinationDatabase.charges (db : CoordinationDatabase Uuid Hash) :
    List (Charge (EventKey Uuid Hash)) :=
  db.runs.map CoordinatedRun.charge

structure WindowRows (windows : List (EventWindowRow Uuid Hash)) : Prop where
  ids_nodup : (windows.map EventWindowRow.id).Nodup
  keys_nodup : (windows.map EventWindowRow.key).Nodup

def EventCoordinationPolicy.holdsEvents : EventCoordinationPolicy -> Bool
  | .deduplicate .. => false
  | _ => true

/-- A pending event is held for the key of its window, and is due by its deadline. -/
structure PendingRow (policyHash : EventCoordinationPolicy -> Hash)
    (windows : List (EventWindowRow Uuid Hash)) (pending : PendingEvent Uuid) : Prop where
  holds : pending.policy.holdsEvents = true
  due_le : pending.dueAt ≤ pending.deadlineAt
  has_window : exists row, row ∈ windows ∧ row.id = pending.keyId ∧
    row.key.policyHash = policyHash pending.policy

structure EventRows (policyHash : EventCoordinationPolicy -> Hash)
    (db : CoordinationDatabase Uuid Hash) : Prop where
  ids_nodup : (db.events.map CoordinatedEvent.id).Nodup
  pending : forall event, event ∈ db.events -> forall pending, event.state = .pending pending ->
    PendingRow policyHash db.windows pending

/-- Every run is that of a started event, and no two runs are of one event. -/
structure RunRows (db : CoordinationDatabase Uuid Hash) : Prop where
  ids_nodup : (db.runs.map CoordinatedRun.eventId).Nodup
  has_event : forall run, run ∈ db.runs -> exists event, event ∈ db.events ∧
    event.id = run.eventId ∧ event.state = .started run.runId

def HeldFor (db : CoordinationDatabase Uuid Hash) (event : CoordinatedEvent Uuid)
    (key : EventKey Uuid Hash) : Prop :=
  exists pending row, event.state = .pending pending ∧ row ∈ db.windows ∧
    row.id = pending.keyId ∧ row.key = key

/-- The runs of a key were received one after the other, and before what is pending. -/
structure ReceivedInOrder (db : CoordinationDatabase Uuid Hash) (clock : Nat) : Prop where
  events_le : forall event, event ∈ db.events -> event.receivedAt ≤ clock
  runs_le : forall run, run ∈ db.runs -> run.receivedAt ≤ clock
  ordered : db.runs.Pairwise fun earlier later =>
    earlier.key = later.key -> earlier.receivedAt ≤ later.receivedAt
  before_held : forall run, run ∈ db.runs -> forall event, event ∈ db.events ->
    HeldFor db event run.key -> run.receivedAt ≤ event.receivedAt

variable [DecidableEq Uuid] [DecidableEq Hash]

/-- A window that counts the runs of its key, for a throttle of the width and the limit. -/
structure ThrottleRow (charges : List (Charge (EventKey Uuid Hash))) (width limit : Nat)
    (row : EventWindowRow Uuid Hash) : Prop where
  counter : CounterOf limit charges row.key row.windowStartedAt row.usedCount
  expires : row.expiresAt = row.windowStartedAt + width

/-- The runs that a throttle of the width and the limit allows. A key without a
window was charged only in windows that have passed. -/
structure Throttled (db : CoordinationDatabase Uuid Hash) (clock : Nat) (hash : Hash)
    (width limit : Nat) : Prop where
  within : forall key, key.policyHash = hash -> forall window,
    chargedIn db.charges key window ≤ limit
  rows : forall row, row ∈ db.windows -> row.key.policyHash = hash ->
    ThrottleRow db.charges width limit row
  passed : forall charge, charge ∈ db.charges -> charge.key.policyHash = hash ->
    (forall row, row ∈ db.windows -> row.key ≠ charge.key) ->
    charge.window + width ≤ millis clock

structure CoordinationInvariant (policyHash : EventCoordinationPolicy -> Hash)
    (db : CoordinationDatabase Uuid Hash) (clock : Nat) : Prop where
  windows : WindowRows db.windows
  events : EventRows policyHash db
  runs : RunRows db
  received : ReceivedInOrder db clock
  throttled : forall key windowSeconds limit onExcess,
    Throttled db clock (policyHash (.throttle key windowSeconds limit onExcess))
      (windowSeconds.val * 1000) limit.val

variable {policyHash : EventCoordinationPolicy -> Hash} {db : CoordinationDatabase Uuid Hash}
variable {clock : Nat}

omit [DecidableEq Uuid] [DecidableEq Hash] in
theorem nodup_map_concat {α κ : Type} {key : α -> κ} {items : List α} {item : α}
    (h : (items.map key).Nodup) (hnew : forall other, other ∈ items -> key other ≠ key item) :
    ((items ++ [item]).map key).Nodup := by
  rw [List.map_append, List.map_singleton]
  apply List.nodup_append.mpr
  refine ⟨h, List.nodup_singleton _, ?_⟩
  intro old hold new hsingle heq
  rcases List.mem_map.mp hold with ⟨other, hother, hsame⟩
  exact hnew other hother (hsame.trans (heq.trans (List.mem_singleton.mp hsingle)))

theorem coordinationInvariant_empty (policyHash : EventCoordinationPolicy -> Hash) (clock : Nat) :
    CoordinationInvariant policyHash
      ({ windows := [], events := [], runs := [] } : CoordinationDatabase Uuid Hash) clock := by
  constructor
  · exact ⟨List.nodup_nil, List.nodup_nil⟩
  · constructor
    · exact List.nodup_nil
    · exact fun event hmem => absurd hmem List.not_mem_nil
  · constructor
    · exact List.nodup_nil
    · exact fun run hmem => absurd hmem List.not_mem_nil
  · constructor
    · exact fun event hmem => absurd hmem List.not_mem_nil
    · exact fun run hmem => absurd hmem List.not_mem_nil
    · exact List.Pairwise.nil
    · exact fun run hmem => absurd hmem List.not_mem_nil
  · intro key windowSeconds limit onExcess
    constructor
    · exact fun key _ window => Nat.zero_le _
    · exact fun row hmem => absurd hmem List.not_mem_nil
    · exact fun charge hmem => absurd hmem List.not_mem_nil

theorem CoordinationInvariant.tick (h : CoordinationInvariant policyHash db clock) {later : Nat}
    (hle : clock ≤ later) : CoordinationInvariant policyHash db later := by
  constructor
  · exact h.windows
  · exact h.events
  · exact h.runs
  · exact
      { events_le := fun event hmem => (h.received.events_le event hmem).trans hle
        runs_le := fun run hmem => (h.received.runs_le run hmem).trans hle
        ordered := h.received.ordered
        before_held := h.received.before_held }
  · intro key windowSeconds limit onExcess
    have hthrottled := h.throttled key windowSeconds limit onExcess
    exact
      { within := hthrottled.within
        rows := hthrottled.rows
        passed := fun charge hmem hkey hnone =>
          (hthrottled.passed charge hmem hkey hnone).trans (Nat.div_le_div_right hle) }

/-!
## Windows
-/

omit [DecidableEq Uuid] [DecidableEq Hash] in
theorem EventRows.mono_windows (h : EventRows policyHash db)
    {windows : List (EventWindowRow Uuid Hash)}
    (hrows : forall row, row ∈ db.windows -> exists kept, kept ∈ windows ∧ kept.id = row.id ∧
      kept.key = row.key) : EventRows policyHash { db with windows } := by
  constructor
  · exact h.ids_nodup
  · intro event hmem pending hpending
    have hheld := h.pending event hmem pending hpending
    rcases hheld.has_window with ⟨row, hrow, hid, hhash⟩
    rcases hrows row hrow with ⟨kept, hkept, hsameId, hsameKey⟩
    exact
      { holds := hheld.holds
        due_le := hheld.due_le
        has_window := ⟨kept, hkept, hsameId.trans hid, hsameKey ▸ hhash⟩ }

omit [DecidableEq Uuid] [DecidableEq Hash] in
theorem WindowRows.eq_of_id {windows : List (EventWindowRow Uuid Hash)} (h : WindowRows windows)
    {left right : EventWindowRow Uuid Hash} (hleft : left ∈ windows) (hright : right ∈ windows)
    (hid : left.id = right.id) : left = right :=
  List.inj_on_of_nodup_map h.ids_nodup hleft hright hid

omit [DecidableEq Uuid] [DecidableEq Hash] in
theorem WindowRows.eq_of_key {windows : List (EventWindowRow Uuid Hash)} (h : WindowRows windows)
    {left right : EventWindowRow Uuid Hash} (hleft : left ∈ windows) (hright : right ∈ windows)
    (hkey : left.key = right.key) : left = right :=
  List.inj_on_of_nodup_map h.keys_nodup hleft hright hkey

theorem CoordinationInvariant.insertWindow (h : CoordinationInvariant policyHash db clock)
    {row : EventWindowRow Uuid Hash} {policy : EventCoordinationPolicy}
    (hinjective : Function.Injective policyHash)
    (hid : forall other, other ∈ db.windows -> other.id ≠ row.id)
    (hkey : forall other, other ∈ db.windows -> other.key ≠ row.key)
    (hhash : row.key.policyHash = policyHash policy) (hstarted : row.windowStartedAt = millis clock)
    (hused : row.usedCount = 0)
    (hexpires : row.expiresAt = row.windowStartedAt + policy.seconds * 1000) :
    CoordinationInvariant policyHash { db with windows := db.windows ++ [row] } clock := by
  have hmemOld : forall other, other ∈ db.windows -> other ∈ db.windows ++ [row] :=
    fun other hmem => List.mem_append_left _ hmem
  constructor
  · constructor
    · exact nodup_map_concat h.windows.ids_nodup hid
    · exact nodup_map_concat h.windows.keys_nodup hkey
  · exact h.events.mono_windows fun other hmem => ⟨other, hmemOld other hmem, rfl, rfl⟩
  · exact ⟨h.runs.ids_nodup, h.runs.has_event⟩
  · constructor
    · exact h.received.events_le
    · exact h.received.runs_le
    · exact h.received.ordered
    · intro run hrun event hmem hheld
      apply h.received.before_held run hrun event hmem
      rcases hheld with ⟨pending, held, hpending, hwindow, hheldId, hheldKey⟩
      -- The window of a pending event was there before.
      rcases (h.events.pending event hmem pending hpending).has_window with
        ⟨old, hold, holdId, _⟩
      cases List.mem_append.mp hwindow with
      | inl hbefore => exact ⟨pending, held, hpending, hbefore, hheldId, hheldKey⟩
      | inr hnew =>
          rw [List.mem_singleton.mp hnew] at hheldId
          exact absurd (holdId.trans hheldId.symm) (hid old hold)
  · intro key windowSeconds limit onExcess
    have hthrottled := h.throttled key windowSeconds limit onExcess
    constructor
    · exact hthrottled.within
    · intro other hmem hother
      cases List.mem_append.mp hmem with
      | inl hold => exact hthrottled.rows other hold hother
      | inr hnew =>
          rw [List.mem_singleton.mp hnew] at hother ⊢
          have hpolicy := hinjective (hhash.symm.trans hother)
          constructor
          · rw [hused, hstarted]
            apply CounterOf.fresh
            intro charge hcharge hsame
            have hpassed := hthrottled.passed charge hcharge (hsame ▸ hother)
              fun held hheld => hsame ▸ hkey held hheld
            have hpositive := windowSeconds.property.left
            omega
          · rw [hexpires, hpolicy]
            rfl
    · intro charge hcharge hother hnone
      exact hthrottled.passed charge hcharge hother
        fun held hheld => hnone held (hmemOld held hheld)

theorem CoordinationInvariant.deleteEventWindow (h : CoordinationInvariant policyHash db clock)
    (id : Uuid) {reading : Nat} (hreading : reading ≤ clock) :
    CoordinationInvariant policyHash (deleteEventWindow db id reading) clock := by
  have hkept : forall row, row ∈ db.windows ->
      row ∉ (Triggers.deleteEventWindow db id reading).windows ->
      row.expiresAt * 1000 ≤ reading ∧ hasPendingOf db row.id = false := by
    intro row hrow hgone
    by_contra hcontra
    apply hgone
    apply List.mem_filter.mpr
    constructor
    · exact hrow
    · by_cases hexpired : row.expiresAt * 1000 ≤ reading
      · have hpending : hasPendingOf db row.id = true := by
          by_contra hnone
          exact hcontra ⟨hexpired, Bool.eq_false_iff.mpr hnone⟩
        simp [hpending]
      · simp [hexpired]
  constructor
  · constructor
    · exact h.windows.ids_nodup.sublist (List.filter_sublist.map _)
    · exact h.windows.keys_nodup.sublist (List.filter_sublist.map _)
  · constructor
    · exact h.events.ids_nodup
    · intro event hmem pending hpending
      have hheld := h.events.pending event hmem pending hpending
      rcases hheld.has_window with ⟨row, hrow, hid, hhash⟩
      refine ⟨hheld.holds, hheld.due_le, row, ?_, hid, hhash⟩
      by_contra hgone
      have hnone := (hkept row hrow hgone).right
      rw [hasPendingOf, List.any_eq_false] at hnone
      apply hnone event hmem
      simp [CoordinatedEvent.isPendingOf, hpending, EventState.pending?, hid]
  · exact ⟨h.runs.ids_nodup, h.runs.has_event⟩
  · constructor
    · exact h.received.events_le
    · exact h.received.runs_le
    · exact h.received.ordered
    · intro run hrun event hmem hheld
      rcases hheld with ⟨pending, row, hpending, hrow, hid, hkey⟩
      exact h.received.before_held run hrun event hmem
        ⟨pending, row, hpending, List.mem_of_mem_filter hrow, hid, hkey⟩
  · intro key windowSeconds limit onExcess
    have hthrottled := h.throttled key windowSeconds limit onExcess
    constructor
    · exact hthrottled.within
    · exact fun row hmem => hthrottled.rows row (List.mem_of_mem_filter hmem)
    · intro charge hcharge hother hnone
      by_cases hrow : exists row, row ∈ db.windows ∧ row.key = charge.key
      · rcases hrow with ⟨row, hrow, hkey⟩
        have hgone : row ∉ (Triggers.deleteEventWindow db id reading).windows :=
          fun hmem => hnone row hmem hkey
        have hthrottleRow := hthrottled.rows row hrow (hkey ▸ hother)
        have hlatest := hthrottleRow.counter.latest charge hcharge hkey.symm
        have hexpired := (hkept row hrow hgone).left
        have hsum : charge.window + windowSeconds.val * 1000 ≤ row.expiresAt := by
          rw [hthrottleRow.expires]
          exact Nat.add_le_add_right hlatest _
        rw [millis, Nat.le_div_iff_mul_le (Nat.zero_lt_succ _)]
        exact (Nat.mul_le_mul_right 1000 hsum).trans (hexpired.trans hreading)
      · exact hthrottled.passed charge hcharge hother fun row hmem hkey => hrow ⟨row, hmem, hkey⟩

/-!
## Events
-/

theorem CoordinationInvariant.insertEvent (h : CoordinationInvariant policyHash db clock)
    {event : CoordinatedEvent Uuid} (hid : forall other, other ∈ db.events -> other.id ≠ event.id)
    (hreceived : event.receivedAt = clock)
    (hpending : forall pending, event.state = .pending pending ->
      PendingRow policyHash db.windows pending) :
    CoordinationInvariant policyHash { db with events := db.events ++ [event] } clock := by
  constructor
  · exact h.windows
  · constructor
    · exact nodup_map_concat h.events.ids_nodup hid
    · intro other hmem pending hstate
      cases List.mem_append.mp hmem with
      | inl hold => exact h.events.pending other hold pending hstate
      | inr hnew =>
          rw [List.mem_singleton.mp hnew] at hstate
          exact hpending pending hstate
  · constructor
    · exact h.runs.ids_nodup
    · intro run hrun
      rcases h.runs.has_event run hrun with ⟨other, hmem, hrest⟩
      exact ⟨other, List.mem_append_left _ hmem, hrest⟩
  · constructor
    · intro other hmem
      cases List.mem_append.mp hmem with
      | inl hold => exact h.received.events_le other hold
      | inr hnew => rw [List.mem_singleton.mp hnew, hreceived]
    · exact h.received.runs_le
    · exact h.received.ordered
    · intro run hrun other hmem hheld
      cases List.mem_append.mp hmem with
      | inl hold => exact h.received.before_held run hrun other hold hheld
      | inr hnew =>
          rw [List.mem_singleton.mp hnew, hreceived]
          exact h.received.runs_le run hrun
  · intro key windowSeconds limit onExcess
    have hthrottled := h.throttled key windowSeconds limit onExcess
    exact ⟨hthrottled.within, hthrottled.rows, hthrottled.passed⟩

/-- How a pending event may be changed: it ends, or it is due later for the same key. -/
def Postpones (state : PendingEvent Uuid -> EventState Uuid) : Prop :=
  forall pending held, state pending = .pending held ->
    held.keyId = pending.keyId ∧ held.policy = pending.policy ∧ held.dueAt ≤ held.deadlineAt

omit [DecidableEq Hash] in
theorem mem_setPendingState {id : Uuid} {state : PendingEvent Uuid -> EventState Uuid}
    {event : CoordinatedEvent Uuid} (h : event ∈ (setPendingState db id state).events) :
    exists old, old ∈ db.events ∧ event.id = old.id ∧ event.receivedAt = old.receivedAt ∧
      (event = old ∨ exists pending, old.state = .pending pending ∧ old.id = id ∧
        event.state = state pending) := by
  rcases List.mem_map.mp h with ⟨old, hold, heq⟩
  refine ⟨old, hold, ?_⟩
  cases hstate : old.state with
  | pending pending =>
      simp only [hstate, EventState.pending?] at heq
      split at heq
      · next hid =>
        rw [← heq]
        exact ⟨rfl, rfl, Or.inr ⟨pending, rfl, hid, rfl⟩⟩
      · rw [← heq]
        exact ⟨rfl, rfl, Or.inl rfl⟩
  | _ =>
      simp only [hstate, EventState.pending?] at heq
      rw [← heq]
      exact ⟨rfl, rfl, Or.inl rfl⟩

omit [DecidableEq Hash] in
theorem map_id_setPendingState (db : CoordinationDatabase Uuid Hash) (id : Uuid)
    (state : PendingEvent Uuid -> EventState Uuid) :
    (setPendingState db id state).events.map CoordinatedEvent.id =
      db.events.map CoordinatedEvent.id := by
  rw [setPendingState, List.map_map]
  apply List.map_congr_left
  intro event _
  rw [Function.comp_apply]
  split
  · rfl
  · split
    · rfl
    · rfl

omit [DecidableEq Hash] in
theorem mem_setPendingState_of_not_pending {id : Uuid}
    {state : PendingEvent Uuid -> EventState Uuid} {event : CoordinatedEvent Uuid}
    (hmem : event ∈ db.events) (hstate : event.state.pending? = none) :
    event ∈ (setPendingState db id state).events := by
  apply List.mem_map.mpr
  refine ⟨event, hmem, ?_⟩
  rw [hstate]

theorem CoordinationInvariant.setPendingState (h : CoordinationInvariant policyHash db clock)
    (id : Uuid) {state : PendingEvent Uuid -> EventState Uuid} (hpostpones : Postpones state) :
    CoordinationInvariant policyHash (setPendingState db id state) clock := by
  constructor
  · exact h.windows
  · constructor
    · rw [map_id_setPendingState]
      exact h.events.ids_nodup
    · intro event hmem held hheld
      rcases mem_setPendingState hmem with ⟨old, hold, _, _, hsame | ⟨pending, hpending, _, hstate⟩⟩
      · exact h.events.pending old hold held (hsame ▸ hheld)
      · have hkeeps := hpostpones pending held (hstate.symm.trans hheld)
        have hrow := h.events.pending old hold pending hpending
        constructor
        · rw [hkeeps.right.left]
          exact hrow.holds
        · exact hkeeps.right.right
        · rw [hkeeps.left, hkeeps.right.left]
          exact hrow.has_window
  · constructor
    · exact h.runs.ids_nodup
    · intro run hrun
      rcases h.runs.has_event run hrun with ⟨event, hmem, hid, hstate⟩
      have hended : event.state.pending? = none := by rw [hstate]; rfl
      exact ⟨event, mem_setPendingState_of_not_pending hmem hended, hid, hstate⟩
  · constructor
    · intro event hmem
      rcases mem_setPendingState hmem with ⟨old, hold, _, hreceived, _⟩
      rw [hreceived]
      exact h.received.events_le old hold
    · exact h.received.runs_le
    · exact h.received.ordered
    · intro run hrun event hmem hheld
      rcases hheld with ⟨held, row, hheld, hrow, hid, hkey⟩
      rcases mem_setPendingState hmem with
        ⟨old, hold, _, hreceived, hsame | ⟨pending, hpending, _, hstate⟩⟩
      · exact hsame ▸ h.received.before_held run hrun old hold
          ⟨held, row, hsame ▸ hheld, hrow, hid, hkey⟩
      · have hkeeps := hpostpones pending held (hstate.symm.trans hheld)
        rw [hreceived]
        exact h.received.before_held run hrun old hold
          ⟨pending, row, hpending, hrow, hid.trans hkeeps.left, hkey⟩
  · intro key windowSeconds limit onExcess
    have hthrottled := h.throttled key windowSeconds limit onExcess
    exact ⟨hthrottled.within, hthrottled.rows, hthrottled.passed⟩

/-!
## Starting runs
-/

/-- The window that is current for a counter is counted by it too. -/
theorem counterOf_currentWindow {limit width now : Nat} {window : EventCoordinationWindow}
    {charges : List (Charge (EventKey Uuid Hash))} {key : EventKey Uuid Hash}
    (h : CounterOf limit charges key window.startedAt window.used) (hwidth : 0 < width) :
    CounterOf limit charges key (currentWindow width now (some window)).startedAt
      (currentWindow width now (some window)).used := by
  rw [currentWindow]
  split
  · next hpassed => exact h.renew (Nat.lt_of_lt_of_le (Nat.lt_add_of_pos_right hwidth) hpassed)
  · exact h

theorem decideEventCoordination_throttle_start {key : EventCoordinationKey}
    {windowSeconds : Bounded 1 86400} {limit : Bounded 1 1000} {onExcess : ExcessRule} {now : Nat}
    {window : Option EventCoordinationWindow} {hasPending : Bool}
    (h : (decideEventCoordination (.throttle key windowSeconds limit onExcess) now window
      hasPending).action = .start) :
    (decideEventCoordination (.throttle key windowSeconds limit onExcess) now window
        hasPending).window = currentWindow (windowSeconds.val * 1000) now window ∧
      (currentWindow (windowSeconds.val * 1000) now window).used < limit.val ∧
      hasPending = false := by
  simp only [decideEventCoordination] at h ⊢
  split at h
  · next hallowed =>
    have hboth := Bool.and_eq_true_iff.mp hallowed
    rw [if_pos hallowed]
    exact ⟨rfl, of_decide_eq_true hboth.left, by simpa using hboth.right⟩
  · cases h

omit [DecidableEq Hash] in
theorem mem_chargeEventWindow {id : Uuid} {policy : EventCoordinationPolicy}
    {window : EventCoordinationWindow} {charged : EventWindowRow Uuid Hash}
    (h : charged ∈ (chargeEventWindow db id policy window).windows) :
    exists old, old ∈ db.windows ∧ charged.id = old.id ∧ charged.key = old.key ∧
      (old.id ≠ id ∧ charged = old ∨
        old.id = id ∧ charged.windowStartedAt = window.startedAt ∧
          charged.usedCount = window.used + 1 ∧
          charged.expiresAt = window.startedAt + policy.seconds * 1000) := by
  rcases List.mem_map.mp h with ⟨old, hold, heq⟩
  refine ⟨old, hold, ?_⟩
  split at heq
  · next hid =>
    rw [← heq]
    exact ⟨rfl, rfl, Or.inr ⟨hid, rfl, rfl, rfl⟩⟩
  · next hid =>
    rw [← heq]
    exact ⟨rfl, rfl, Or.inl ⟨hid, rfl⟩⟩

omit [DecidableEq Hash] in
theorem exists_mem_chargeEventWindow (id : Uuid) (policy : EventCoordinationPolicy)
    (window : EventCoordinationWindow) {old : EventWindowRow Uuid Hash} (h : old ∈ db.windows) :
    exists kept, kept ∈ (chargeEventWindow db id policy window).windows ∧ kept.id = old.id ∧
      kept.key = old.key := by
  refine ⟨_, List.mem_map.mpr ⟨old, h, rfl⟩, ?_⟩
  split
  · exact ⟨rfl, rfl⟩
  · exact ⟨rfl, rfl⟩

omit [DecidableEq Hash] in
theorem WindowRows.charge (h : WindowRows db.windows) (id : Uuid)
    (policy : EventCoordinationPolicy) (window : EventCoordinationWindow) :
    WindowRows (chargeEventWindow db id policy window).windows := by
  have hid : (chargeEventWindow db id policy window).windows.map EventWindowRow.id =
      db.windows.map EventWindowRow.id := by
    rw [chargeEventWindow, List.map_map]
    apply List.map_congr_left
    intro row _
    rw [Function.comp_apply]
    split
    · rfl
    · rfl
  have hkey : (chargeEventWindow db id policy window).windows.map EventWindowRow.key =
      db.windows.map EventWindowRow.key := by
    rw [chargeEventWindow, List.map_map]
    apply List.map_congr_left
    intro row _
    rw [Function.comp_apply]
    split
    · rfl
    · rfl
  constructor
  · rw [hid]
    exact h.ids_nodup
  · rw [hkey]
    exact h.keys_nodup

omit [DecidableEq Hash] in
theorem heldFor_of_chargeEventWindow {id : Uuid} {policy : EventCoordinationPolicy}
    {window : EventCoordinationWindow} {event : CoordinatedEvent Uuid}
    {key : EventKey Uuid Hash}
    (h : HeldFor (chargeEventWindow db id policy window) event key) : HeldFor db event key := by
  rcases h with ⟨pending, row, hpending, hrow, hid, hkey⟩
  rcases mem_chargeEventWindow hrow with ⟨old, hold, hsameId, hsameKey, _⟩
  exact ⟨pending, old, hpending, hold, hsameId.symm.trans hid, hsameKey.symm.trans hkey⟩

structure Startable (policyHash : EventCoordinationPolicy -> Hash)
    (db : CoordinationDatabase Uuid Hash) (clock : Nat) (row : EventWindowRow Uuid Hash)
    (policy : EventCoordinationPolicy) (window : EventCoordinationWindow)
    (run : CoordinatedRun Uuid Hash) : Prop where
  row_mem : row ∈ db.windows
  row_hash : row.key.policyHash = policyHash policy
  key_eq : run.key = row.key
  window_eq : run.windowStartedAt = window.startedAt
  allowed : forall key windowSeconds limit onExcess,
    policy = .throttle key windowSeconds limit onExcess ->
    CounterOf limit.val db.charges row.key window.startedAt window.used ∧ window.used < limit.val
  event_new : forall other, other ∈ db.runs -> other.eventId ≠ run.eventId
  has_event : exists event, event ∈ db.events ∧ event.id = run.eventId ∧
    event.state = .started run.runId
  received_le : run.receivedAt ≤ clock
  latest : forall other, other ∈ db.runs -> other.key = run.key ->
    other.receivedAt ≤ run.receivedAt
  before_held : forall event, event ∈ db.events -> HeldFor db event run.key ->
    run.receivedAt ≤ event.receivedAt

variable {row : EventWindowRow Uuid Hash} {policy : EventCoordinationPolicy}
variable {window : EventCoordinationWindow} {run : CoordinatedRun Uuid Hash}

theorem Startable.charges_eq (h : Startable policyHash db clock row policy window run) :
    (startRun (chargeEventWindow db row.id policy window) run).charges =
      db.charges ++ [{ key := row.key, window := window.startedAt }] := by
  rw [CoordinationDatabase.charges, startRun, List.map_append, List.map_singleton,
    CoordinatedRun.charge, h.key_eq, h.window_eq]
  rfl

theorem Throttled.startRun {key : EventCoordinationKey} {windowSeconds : Bounded 1 86400}
    {limit : Bounded 1 1000} {onExcess : ExcessRule}
    (h : Throttled db clock (policyHash (.throttle key windowSeconds limit onExcess))
      (windowSeconds.val * 1000) limit.val)
    (hwindows : WindowRows db.windows) (hinjective : Function.Injective policyHash)
    (hstart : Startable policyHash db clock row policy window run) :
    Throttled (startRun (chargeEventWindow db row.id policy window) run) clock
      (policyHash (.throttle key windowSeconds limit onExcess)) (windowSeconds.val * 1000)
      limit.val := by
  have hpolicy : row.key.policyHash = policyHash (.throttle key windowSeconds limit onExcess) ->
      policy = .throttle key windowSeconds limit onExcess :=
    fun hsame => hinjective (hstart.row_hash.symm.trans hsame)
  constructor
  · intro other hother counted
    rw [hstart.charges_eq]
    by_cases hsame : row.key = other
    · have hallowed := hstart.allowed _ _ _ _ (hpolicy (hsame ▸ hother))
      exact hallowed.left.chargedIn_concat_le hallowed.right (h.within other hother) counted
    · rw [chargedIn_concat, if_neg fun hboth => hsame hboth.left]
      exact h.within other hother counted
  · intro charged hmem hother
    rcases mem_chargeEventWindow hmem with ⟨old, hold, _, hsameKey, hcharged⟩
    rw [hstart.charges_eq]
    rcases hcharged with ⟨hid, hsame⟩ | ⟨hid, hstarted, hused, hexpires⟩
    · rw [hsame] at hother ⊢
      have holdRow := h.rows old hold hother
      constructor
      · apply holdRow.counter.charge_other
        intro hkey
        exact hid (congrArg EventWindowRow.id (hwindows.eq_of_key hold hstart.row_mem hkey.symm))
      · exact holdRow.expires
    · have heq : old = row := hwindows.eq_of_id hold hstart.row_mem hid
      have hthrottle := hpolicy (heq ▸ hsameKey ▸ hother)
      have hallowed := hstart.allowed _ _ _ _ hthrottle
      constructor
      · rw [hsameKey, heq, hstarted, hused]
        exact hallowed.left.charge hallowed.right
      · rw [hexpires, hstarted, hthrottle]
        rfl
  · intro charge hcharge hother hnone
    rw [hstart.charges_eq] at hcharge
    have hnoneBefore : forall old, old ∈ db.windows -> old.key ≠ charge.key := by
      intro old hold
      rcases exists_mem_chargeEventWindow row.id policy window hold with ⟨kept, hkept, _, hkey⟩
      exact hkey ▸ hnone kept hkept
    cases List.mem_append.mp hcharge with
    | inl hbefore => exact h.passed charge hbefore hother hnoneBefore
    | inr hnew =>
        rw [List.mem_singleton.mp hnew] at hnoneBefore
        exact absurd rfl (hnoneBefore row hstart.row_mem)

theorem CoordinationInvariant.startRun (h : CoordinationInvariant policyHash db clock)
    (hinjective : Function.Injective policyHash)
    (hstart : Startable policyHash db clock row policy window run) :
    CoordinationInvariant policyHash
      (startRun (chargeEventWindow db row.id policy window) run) clock := by
  constructor
  · exact h.windows.charge row.id policy window
  · have hkept := h.events.mono_windows fun old hold =>
      exists_mem_chargeEventWindow row.id policy window hold
    exact ⟨hkept.ids_nodup, hkept.pending⟩
  · constructor
    · exact nodup_map_concat h.runs.ids_nodup hstart.event_new
    · intro other hmem
      cases List.mem_append.mp hmem with
      | inl hold => exact h.runs.has_event other hold
      | inr hnew =>
          rw [List.mem_singleton.mp hnew]
          exact hstart.has_event
  · constructor
    · exact h.received.events_le
    · intro other hmem
      cases List.mem_append.mp hmem with
      | inl hold => exact h.received.runs_le other hold
      | inr hnew =>
          rw [List.mem_singleton.mp hnew]
          exact hstart.received_le
    · apply List.pairwise_append.mpr
      refine ⟨h.received.ordered, List.pairwise_singleton _ _, ?_⟩
      intro other hother new hnew hkey
      rw [List.mem_singleton.mp hnew] at hkey ⊢
      exact hstart.latest other hother hkey
    · intro other hmem event hevent hheld
      have hheldBefore := heldFor_of_chargeEventWindow hheld
      cases List.mem_append.mp hmem with
      | inl hold => exact h.received.before_held other hold event hevent hheldBefore
      | inr hnew =>
          rw [List.mem_singleton.mp hnew] at hheldBefore ⊢
          exact hstart.before_held event hevent hheldBefore
  · exact fun key windowSeconds limit onExcess =>
      (h.throttled key windowSeconds limit onExcess).startRun h.windows hinjective hstart

end

end Triggers
end Pertexo
