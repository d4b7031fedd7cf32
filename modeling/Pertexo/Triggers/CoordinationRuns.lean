import Pertexo.Library.Runs
import Pertexo.Triggers.CoordinationSteps

/-!
# Runs of coordination

## Receiving events
-/

namespace Pertexo
namespace Triggers

open Library

section

variable {Uuid Hash : Type} [LinearOrder Uuid] [DecidableEq Hash]
variable {policyHash : EventCoordinationPolicy -> Hash}
variable {db loaded db' : CoordinationDatabase Uuid Hash}
variable {input : CoordinateEventInput Uuid} {reads : CoordinateReads Uuid}
variable {row : EventWindowRow Uuid Hash} {result : CoordinateEventResult Uuid}

structure CommitsEvent (policyHash : EventCoordinationPolicy -> Hash)
    (before after : CoordinationDatabase Uuid Hash) (clock : Nat) (id : Uuid) : Prop where
  commits : Commits policyHash before after clock
  recorded : exists event, event ∈ after.events ∧ event.id = id

structure Loads (policyHash : EventCoordinationPolicy -> Hash)
    (db loaded : CoordinationDatabase Uuid Hash) (clock : Nat) : Prop where
  invariant : CoordinationInvariant policyHash loaded clock
  events_eq : loaded.events = db.events
  runs_eq : loaded.runs = db.runs
  windows_mem : forall old, old ∈ db.windows -> old ∈ loaded.windows

theorem Loads.record (h : Loads policyHash db loaded reads.clock) {state : EventState Uuid}
    (hle : reads.clock ≤ reads.receivedAt)
    (hrecord : recordCoordinatedEvent loaded input reads.receivedAt state = some db')
    (hpending : forall pending, state = .pending pending ->
      PendingRow policyHash loaded.windows pending) :
    CommitsEvent policyHash db db' reads.receivedAt input.eventId := by
  rcases recordCoordinatedEvent_eq_some hrecord with ⟨_, heq⟩
  constructor
  · apply Commits.of_runs_eq (h.invariant.record hle hrecord hpending)
    · apply eventsKept_of_append
      rw [heq, ← h.events_eq]
    · rw [heq]
      exact h.runs_eq
  · rw [heq]
    exact ⟨_, List.mem_append_right _ (List.mem_singleton_self _), rfl⟩

theorem Loads.refuse (h : Loads policyHash db loaded reads.clock)
    {reason : EventCoordinationReason} (hle : reads.clock ≤ reads.receivedAt)
    (hrefuse : refuseEvent loaded input reads.receivedAt reason = some (db', result)) :
    CommitsEvent policyHash db db' reads.receivedAt input.eventId := by
  rcases Option.bind_eq_some_iff.mp hrefuse with ⟨recorded, hrecord, heq⟩
  cases heq
  exact h.record hle hrecord fun pending hpending => nomatch hpending

theorem Loads.start (h : Loads policyHash db loaded reads.clock)
    (hinjective : Function.Injective policyHash) (hle : reads.clock ≤ reads.receivedAt)
    {decision : EventCoordinationDecision} {now : Nat} {hasPending : Bool}
    (hrow : row ∈ loaded.windows)
    (hhash : row.key.policyHash = policyHash input.prepared.policy)
    (hdecision : decision = decideEventCoordination input.prepared.policy now
      (some { startedAt := row.windowStartedAt, used := row.usedCount }) hasPending)
    (haction : decision.action = .start)
    (hnone : forall event, event ∈ loaded.events -> forall pending,
      event.state = .pending pending -> pending.keyId ≠ row.id)
    (hstart : startCoordinatedEvent loaded input reads row decision = some (db', result)) :
    CommitsEvent policyHash db db' reads.receivedAt input.eventId := by
  rw [startCoordinatedEvent.eq_def] at hstart
  split at hstart
  · next runId duplicate _ =>
    rcases Option.bind_eq_some_iff.mp hstart with ⟨recorded, hrecord, heq⟩
    rcases recordCoordinatedEvent_eq_some hrecord with ⟨hfree, hrecorded⟩
    have hnotHeld : forall event, event ∈ loaded.events -> ¬ HeldFor loaded event row.key := by
      intro event hmem hheld
      rcases hheld with ⟨pending, held, hpending, hheldRow, hid, hkey⟩
      have hsame := h.invariant.windows.eq_of_key hheldRow hrow hkey
      exact hnone event hmem pending hpending (hid.symm.trans (congrArg EventWindowRow.id hsame))
    cases heq
    rw [hrecorded]
    have hrecordedInvariant : CoordinationInvariant policyHash
        { loaded with
          events := loaded.events ++ [input.event reads.receivedAt (.started runId)] }
        reads.receivedAt :=
      (h.invariant.tick hle).insertEvent hfree rfl fun pending hpending => nomatch hpending
    constructor
    · constructor
      · apply hrecordedInvariant.startRun hinjective
        constructor
        · exact hrow
        · exact hhash
        · rfl
        · rfl
        · exact hrecordedInvariant.allowed hrow hhash hdecision fun _ _ _ _ _ => haction
        · intro other hother
          rcases h.invariant.runs.has_event other hother with ⟨event, hmem, hid, _⟩
          exact hid ▸ hfree event hmem
        · exact ⟨_, List.mem_append_right _ (List.mem_singleton_self _), rfl, rfl⟩
        · exact le_rfl
        · exact fun other hother _ => (h.invariant.received.runs_le other hother).trans hle
        · intro event hmem hheld
          cases List.mem_append.mp hmem with
          | inl hold => exact absurd hheld (hnotHeld event hold)
          | inr hnew =>
              rcases hheld with ⟨pending, _, hpending, _⟩
              rw [List.mem_singleton.mp hnew] at hpending
              cases hpending
      · apply eventsKept_of_append
        rw [← h.events_eq]
        rfl
      · intro run hrun hnew event hmem hheld
        rcases hheld with ⟨pending, held, hpending, hheldRow, hid, hkey⟩
        cases List.mem_append.mp hrun with
        | inl hold => exact absurd (h.runs_eq ▸ hold) hnew
        | inr hsingle =>
            rw [List.mem_singleton.mp hsingle] at hkey
            exact absurd ⟨pending, held, hpending, h.windows_mem held hheldRow, hid, hkey⟩
              (hnotHeld event (h.events_eq ▸ hmem))
    · exact ⟨_, List.mem_append_right _ (List.mem_singleton_self _), rfl⟩
  · rcases Option.bind_eq_some_iff.mp hstart with ⟨recorded, hrecord, heq⟩
    cases heq
    exact h.record hle hrecord fun pending hpending => nomatch hpending
  · cases hstart

theorem CoordinationInvariant.coalesceEvent {clock : Nat}
    (h : CoordinationInvariant policyHash db clock)
    (replaced : Option (CoordinatedEvent Uuid × PendingEvent Uuid)) :
    CoordinationInvariant policyHash (coalesceEvent db replaced) clock ∧
      EventsKept db (coalesceEvent db replaced) ∧
      (coalesceEvent db replaced).runs = db.runs ∧
      (coalesceEvent db replaced).windows = db.windows := by
  cases replaced with
  | none => exact ⟨h, eventsKept_of_append (List.append_nil _).symm, rfl, rfl⟩
  | some found =>
      have hpostpones : Postpones fun _ : PendingEvent Uuid => .coalesced .newerEvent :=
        fun pending held hheld => nomatch hheld
      exact ⟨h.setPendingState found.fst.id hpostpones,
        eventsKept_setPendingState found.fst.id fun _ => .coalesced .newerEvent, rfl, rfl⟩

theorem Loads.hold (h : Loads policyHash db loaded reads.clock)
    (hle : reads.clock ≤ reads.receivedAt) {action : EventCoordinationAction} {dueAt : Nat}
    (hrow : row ∈ loaded.windows)
    (hhash : row.key.policyHash = policyHash input.prepared.policy)
    (hholds : input.prepared.policy.holdsEvents = true)
    (hhold : holdEvent loaded input reads row (oldestPending loaded row.id) action dueAt =
      some (db', result)) :
    CommitsEvent policyHash db db' reads.receivedAt input.eventId := by
  rw [holdEvent] at hhold
  dsimp only at hhold
  split at hhold
  · exact h.refuse hle hhold
  · rcases Option.bind_eq_some_iff.mp hhold with ⟨recorded, hrecord, heq⟩
    cases heq
    rcases h.invariant.coalesceEvent
      (replacedEvent input.prepared.policy (oldestPending loaded row.id)) with
      ⟨hinvariant, hkept, hruns, hwindows⟩
    rcases recordCoordinatedEvent_eq_some hrecord with ⟨_, hrecorded⟩
    constructor
    · apply Commits.of_runs_eq
      · apply hinvariant.record hle hrecord
        intro pending hpending
        cases hpending
        exact
          { holds := hholds
            due_le := Nat.min_le_right _ _
            has_window := ⟨row, hwindows ▸ hrow, rfl, hhash⟩ }
      · apply (eventsKept_of_append (h.events_eq.trans (List.append_nil _).symm)).trans
        apply hkept.trans
        rw [hrecorded]
        exact eventsKept_of_append rfl
      · rw [hrecorded]
        exact hruns.trans h.runs_eq
    · rw [hrecorded]
      exact ⟨_, List.mem_append_right _ (List.mem_singleton_self _), rfl⟩

/-- A key whose policy starts runs directly holds no event when one starts. -/
theorem Loads.not_pending_of_start (h : Loads policyHash db loaded reads.clock)
    (hinjective : Function.Injective policyHash) {policy : EventCoordinationPolicy} {now : Nat}
    {window : Option EventCoordinationWindow} (hrow : row ∈ loaded.windows)
    (hhash : row.key.policyHash = policyHash policy)
    (haction : (decideEventCoordination policy now window
      (oldestPending loaded row.id).isSome).action = .start)
    {event : CoordinatedEvent Uuid} (hmem : event ∈ loaded.events) {pending : PendingEvent Uuid}
    (hpending : event.state = .pending pending) : pending.keyId ≠ row.id := by
  cases policy with
  | debounce key quietSeconds => cases haction
  | throttle key windowSeconds limit onExcess =>
      have hnone := (decideEventCoordination_throttle_start haction).right.right
      rw [Option.isSome_eq_false_iff, Option.isNone_iff_eq_none] at hnone
      exact oldestPending_eq_none hnone hmem hpending
  | deduplicate key windowSeconds =>
      intro hkey
      have hheld := h.invariant.events.pending event hmem pending hpending
      rcases hheld.has_window with ⟨held, hheldRow, hid, hheldHash⟩
      have hsame := h.invariant.windows.eq_of_id hheldRow hrow (hid.trans hkey)
      have hpolicy := hinjective (hheldHash.symm.trans (hsame ▸ hhash))
      have hholds := hheld.holds
      rw [hpolicy] at hholds
      cases hholds

theorem holdsEvents_of_dueAt {policy : EventCoordinationPolicy} {now dueAt : Nat}
    {window : Option EventCoordinationWindow} {hasPending : Bool}
    (h : (decideEventCoordination policy now window hasPending).dueAt = some dueAt) :
    policy.holdsEvents = true := by
  cases policy with
  | deduplicate key windowSeconds => cases h
  | debounce key quietSeconds => rfl
  | throttle key windowSeconds limit onExcess => rfl

theorem CoordinationInvariant.coordinateEvent {clock : Nat}
    (h : CoordinationInvariant policyHash db clock) (hinjective : Function.Injective policyHash)
    (hclock : clock ≤ reads.clock) (hle : reads.clock ≤ reads.receivedAt)
    (hcommit : coordinateEvent policyHash db input reads = some (db', result)) :
    CommitsEvent policyHash db db' reads.receivedAt input.eventId := by
  have hticked := h.tick hclock
  rw [Triggers.coordinateEvent.eq_def] at hcommit
  split at hcommit
  · have hloads : Loads policyHash db db reads.clock := ⟨hticked, rfl, rfl, fun _ hmem => hmem⟩
    exact hloads.refuse hle hcommit
  · next keyHash hkeyHash =>
    rcases Option.bind_eq_some_iff.mp hcommit with ⟨⟨loaded, row⟩, hload, hdecide⟩
    rcases hticked.loadEventWindow hinjective rfl hload with
      ⟨hinvariant, hevents, hruns, hwindows, hfound⟩
    have hloads : Loads policyHash db loaded reads.clock := ⟨hinvariant, hevents, hruns, hwindows⟩
    cases row with
    | none => exact hloads.refuse hle hdecide
    | some row =>
        rcases hfound row rfl with ⟨hrow, hkey⟩
        have hhash : row.key.policyHash = policyHash input.prepared.policy := by rw [hkey]
        dsimp only at hdecide
        split at hdecide
        · next _ haction =>
          exact hloads.start hinjective hle hrow hhash rfl haction
            (fun event hmem pending hpending =>
              hloads.not_pending_of_start hinjective hrow hhash haction hmem hpending) hdecide
        · rcases Option.bind_eq_some_iff.mp hdecide with ⟨recorded, hrecord, heq⟩
          cases heq
          exact hloads.record hle hrecord fun pending hpending => nomatch hpending
        · rcases Option.bind_eq_some_iff.mp hdecide with ⟨recorded, hrecord, heq⟩
          cases heq
          exact hloads.record hle hrecord fun pending hpending => nomatch hpending
        · next hdue _ _ =>
          exact hloads.hold hle hrow hhash (holdsEvents_of_dueAt hdue) hdecide

/-!
## Releasing events
-/

omit [LinearOrder Uuid] in
theorem postpones_const {state : EventState Uuid} (h : state.isPending = false) :
    Postpones fun _ => state := by
  intro pending held hheld
  change state = .pending held at hheld
  rw [hheld] at h
  cases h

omit [LinearOrder Uuid] in
theorem boundedDueAt_le (dueAt : Nat) (pending : PendingEvent Uuid)
    (waitStartedAt : Option Nat) :
    boundedDueAt dueAt pending waitStartedAt ≤ pending.deadlineAt := by
  cases waitStartedAt with
  | none => exact Nat.min_le_right _ _
  | some startedAt => exact (Nat.min_le_left _ _).trans (Nat.min_le_right _ _)

theorem decideEventCoordination_throttle_action {policy : EventCoordinationPolicy}
    {key : EventCoordinationKey} {windowSeconds : Bounded 1 86400} {limit : Bounded 1 1000}
    {onExcess : ExcessRule} (h : policy = .throttle key windowSeconds limit onExcess) (now : Nat)
    (window : Option EventCoordinationWindow) (hasPending : Bool) :
    (decideEventCoordination policy now window hasPending).action = .start ∨
      (decideEventCoordination policy now window hasPending).action = .throttled := by
  rw [h]
  simp only [decideEventCoordination]
  split
  · exact Or.inl rfl
  · exact Or.inr rfl

def releasedInto (db : CoordinationDatabase Uuid Hash) (event : CoordinatedEvent Uuid)
    (pending : PendingEvent Uuid) (row : EventWindowRow Uuid Hash)
    (window : EventCoordinationWindow) (runId : Uuid) : CoordinationDatabase Uuid Hash :=
  startRun
    (finishCoordinatedEvent (chargeEventWindow db pending.keyId pending.policy window) event.id
      (.started runId))
    { runId
      eventId := event.id
      key := row.key
      windowStartedAt := window.startedAt
      receivedAt := event.receivedAt
      queued := true }

omit [DecidableEq Hash] in
theorem startPendingCoordinatedRun_cases {event : CoordinatedEvent Uuid}
    {pending : PendingEvent Uuid} {reads : ReleaseReads Uuid}
    {decision : EventCoordinationDecision} {result : ReleaseResult}
    (h : startPendingCoordinatedRun db event pending reads row decision = some (db', result)) :
    (exists state, Postpones state ∧ db' = setPendingState db event.id state) ∨
      exists runId, db' = releasedInto db event pending row decision.window runId := by
  rw [startPendingCoordinatedRun.eq_def] at h
  split at h
  · cases h
    exact Or.inl ⟨_, postpones_const rfl, rfl⟩
  · split at h
    · next runId _ _ =>
      cases h
      exact Or.inr ⟨runId, rfl⟩
    · cases h
      exact Or.inl ⟨_, postpones_const rfl, rfl⟩
    · cases h
      exact Or.inl ⟨_, postpones_const rfl, rfl⟩
    · cases h
      refine Or.inl ⟨_, ?_, rfl⟩
      intro held postponed hpostponed
      cases hpostponed
      refine ⟨rfl, rfl, ?_⟩
      dsimp only
      exact boundedDueAt_le _ _ _
    · cases h

omit [DecidableEq Hash] in
/-- A release changes nothing, ends or postpones its event, or starts its run. -/
theorem releaseCoordinatedEvent_cases {id : Uuid} {reads : ReleaseReads Uuid}
    {result : ReleaseResult} (h : releaseCoordinatedEvent db id reads = some (db', result)) :
    db' = db ∨
      (exists state, Postpones state ∧ db' = setPendingState db id state) ∨
      exists event pending row runId,
        findPendingEvent db id = some (event, pending) ∧
        hasOlderPending db event pending.keyId = false ∧
        row ∈ db.windows ∧ row.id = pending.keyId ∧
        (forall key windowSeconds limit onExcess,
          pending.policy = .throttle key windowSeconds limit onExcess ->
          (decideEventCoordination pending.policy (millis reads.clock)
            (some { startedAt := row.windowStartedAt, used := row.usedCount }) false).action =
            .start) ∧
        db' = releasedInto db event pending row
          (decideEventCoordination pending.policy (millis reads.clock)
            (some { startedAt := row.windowStartedAt, used := row.usedCount }) false).window
          runId := by
  have hended : forall {state : EventState Uuid} {outcome : ReleaseResult},
      state.isPending = false ->
      some (finishCoordinatedEvent db id state, outcome) = some (db', result) ->
      exists state, Postpones state ∧ db' = setPendingState db id state := by
    intro state outcome hstate heq
    exact ⟨_, postpones_const hstate, (congrArg Prod.fst (Option.some.inj heq)).symm⟩
  rw [releaseCoordinatedEvent.eq_def] at h
  split at h
  · cases h
    exact Or.inl rfl
  · next event pending hfind =>
    have hid : event.id = id := (findPendingEvent_eq_some hfind).right.right
    dsimp only at h
    split at h
    · cases h
      exact Or.inl rfl
    split at h
    · exact Or.inr (Or.inl (hended rfl h))
    split at h
    · exact Or.inr (Or.inl (hended rfl h))
    split at h
    · exact Or.inr (Or.inl (hended rfl h))
    split at h
    · exact Or.inr (Or.inl (hended rfl h))
    split at h
    · exact Or.inr (Or.inl (hended rfl h))
    split at h
    · cases h
      exact Or.inl rfl
    split at h
    · cases h
      exact Or.inl rfl
    next holder =>
    rcases Option.bind_eq_some_iff.mp h with ⟨row, hrow, hdecide⟩
    split at hdecide
    · exact Or.inr (Or.inl (hended rfl hdecide))
    · cases hdecide
      refine Or.inr (Or.inl ⟨_, ?_, rfl⟩)
      intro held postponed hpostponed
      cases hpostponed
      exact ⟨rfl, rfl, boundedDueAt_le _ _ _⟩
    · next hnotDelayed hnotSkipped =>
      right
      rw [← hid]
      cases startPendingCoordinatedRun_cases hdecide with
      | inl hpostponed => exact Or.inl hpostponed
      | inr hstarted =>
          rcases hstarted with ⟨runId, hstarted⟩
          refine Or.inr ⟨event, pending, row, runId, hid ▸ hfind, ?_,
            List.mem_of_find?_eq_some hrow, by simpa using List.find?_some hrow, ?_, hstarted⟩
          · exact Bool.eq_false_iff.mpr holder
          · intro key windowSeconds limit onExcess hpolicy
            cases decideEventCoordination_throttle_action hpolicy _ _ _ with
            | inl hstart => exact hstart
            | inr hthrottled =>
                cases hdue : (decideEventCoordination pending.policy (millis reads.clock)
                    (some { startedAt := row.windowStartedAt, used := row.usedCount })
                    false).dueAt with
                | none => exact (hnotDelayed _ _ _ _ hpolicy hthrottled hdue).elim
                | some dueAt => exact (hnotSkipped _ _ _ _ _ hpolicy hthrottled hdue).elim

omit [DecidableEq Hash] in
theorem position_le_of_hasOlderPending {event other : CoordinatedEvent Uuid} {keyId : Uuid}
    (h : hasOlderPending db event keyId = false) (hmem : other ∈ db.events)
    {pending : PendingEvent Uuid} (hpending : other.state = .pending pending)
    (hkey : pending.keyId = keyId) : event.position ≤ other.position := by
  rw [hasOlderPending, List.any_eq_false] at h
  apply le_of_not_gt
  intro hlt
  apply h other hmem
  rw [Bool.and_eq_true]
  exact ⟨isPendingOf_iff.mpr ⟨pending, hpending, hkey⟩, decide_eq_true hlt⟩

theorem receivedAt_le_of_position_le {event other : CoordinatedEvent Uuid}
    (h : event.position ≤ other.position) : event.receivedAt ≤ other.receivedAt := by
  cases Prod.Lex.le_iff.mp h with
  | inl hlt => exact Nat.le_of_lt hlt
  | inr heq => exact Nat.le_of_eq heq.left

/-- Starting the run of a pending event that no older one precedes. -/
theorem CoordinationInvariant.releasedInto {clock : Nat}
    (h : CoordinationInvariant policyHash db clock) (hinjective : Function.Injective policyHash)
    {id : Uuid} {event : CoordinatedEvent Uuid} {pending : PendingEvent Uuid} {now : Nat}
    {decision : EventCoordinationDecision} {hasPending : Bool} (runId : Uuid)
    (hfind : findPendingEvent db id = some (event, pending))
    (holder : hasOlderPending db event pending.keyId = false) (hrow : row ∈ db.windows)
    (hid : row.id = pending.keyId)
    (hdecision : decision = decideEventCoordination pending.policy now
      (some { startedAt := row.windowStartedAt, used := row.usedCount }) hasPending)
    (haction : forall key windowSeconds limit onExcess,
      pending.policy = .throttle key windowSeconds limit onExcess -> decision.action = .start) :
    Commits policyHash db (releasedInto db event pending row decision.window runId) clock := by
  rcases findPendingEvent_eq_some hfind with ⟨hevent, hpending, _⟩
  rcases (h.events.pending event hevent pending hpending).has_window with
    ⟨held, hheldRow, hheldId, hhash⟩
  have hsameRow := h.windows.eq_of_id hheldRow hrow (hheldId.trans hid.symm)
  rw [hsameRow] at hhash
  have hheld : HeldFor db event row.key := ⟨pending, row, hpending, hrow, hid, rfl⟩
  -- A pending event of the key is held with the same window.
  have hposition : forall other, other ∈ db.events -> HeldFor db other row.key ->
      event.position ≤ other.position := by
    intro other hother hotherHeld
    rcases hotherHeld with ⟨waiting, window, hwaiting, hwindow, hwindowId, hwindowKey⟩
    have hsame := h.windows.eq_of_key hwindow hrow hwindowKey
    apply position_le_of_hasOlderPending holder hother hwaiting
    rw [← hwindowId, hsame, hid]
  have hpostpones : Postpones fun _ : PendingEvent Uuid => .started runId := postpones_const rfl
  have hfinished := h.setPendingState event.id hpostpones
  have heq : Triggers.releasedInto db event pending row decision.window runId =
      Triggers.startRun
        (chargeEventWindow (finishCoordinatedEvent db event.id (.started runId)) row.id
          pending.policy decision.window)
        { runId
          eventId := event.id
          key := row.key
          windowStartedAt := decision.window.startedAt
          receivedAt := event.receivedAt
          queued := true } := by
    rw [hid]
    rfl
  constructor
  · rw [heq]
    apply hfinished.startRun hinjective
    constructor
    · exact hrow
    · exact hhash
    · rfl
    · rfl
    · exact hfinished.allowed hrow hhash hdecision haction
    · intro other hother hsame
      rcases h.runs.has_event other hother with ⟨started, hstarted, hstartedId, hstate⟩
      have hboth := List.inj_on_of_nodup_map h.events.ids_nodup hstarted hevent
        (hstartedId.trans hsame)
      rw [hboth, hpending] at hstate
      cases hstate
    · refine ⟨{ event with state := .started runId }, ?_, rfl, rfl⟩
      apply List.mem_map.mpr
      refine ⟨event, hevent, ?_⟩
      simp [hpending, EventState.pending?]
    · exact h.received.events_le event hevent
    · exact fun other hother hkey =>
        h.received.before_held other hother event hevent (hkey ▸ hheld)
    · intro other hother hotherHeld
      rcases hotherHeld with ⟨waiting, window, hwaiting, hwindow, hwindowId, hwindowKey⟩
      rcases mem_setPendingState hother with
        ⟨old, hold, _, hreceived, hsame | ⟨_, _, _, hended⟩⟩
      · rw [hsame] at hwaiting ⊢
        exact receivedAt_le_of_position_le (hposition old hold
          ⟨waiting, window, hwaiting, hwindow, hwindowId, hwindowKey⟩)
      · rw [hended] at hwaiting
        cases hwaiting
  · exact eventsKept_setPendingState event.id fun _ => .started runId
  · intro run hrun hnew other hother hotherHeld hne
    cases List.mem_append.mp hrun with
    | inl hold => exact absurd hold hnew
    | inr hsingle =>
        rw [List.mem_singleton.mp hsingle] at hotherHeld hne ⊢
        apply lt_of_le_of_ne (hposition other hother hotherHeld)
        intro hsame
        have hpair : (event.receivedAt, event.id) = (other.receivedAt, other.id) :=
          toLex.injective hsame
        exact hne (congrArg Prod.snd hpair).symm

theorem CoordinationInvariant.releaseCoordinatedEvent {clock : Nat}
    (h : CoordinationInvariant policyHash db clock) (hinjective : Function.Injective policyHash)
    {id : Uuid} {reads : ReleaseReads Uuid} {result : ReleaseResult}
    (hclock : clock ≤ reads.clock)
    (hcommit : releaseCoordinatedEvent db id reads = some (db', result)) :
    Commits policyHash db db' reads.clock := by
  have hticked := h.tick hclock
  rcases releaseCoordinatedEvent_cases hcommit with hsame | ⟨state, hpostpones, hset⟩ | hstarted
  · rw [hsame]
    exact Commits.of_runs_eq hticked (eventsKept_of_append (List.append_nil _).symm) rfl
  · rw [hset]
    exact Commits.of_runs_eq (hticked.setPendingState id hpostpones)
      (eventsKept_setPendingState id state) rfl
  · rcases hstarted with ⟨event, pending, row, runId, hfind, holder, hrow, hid, haction, heq⟩
    rw [heq]
    exact hticked.releasedInto hinjective runId hfind holder hrow hid rfl haction

end

end Triggers
end Pertexo
