import Pertexo.Engine.BranchLedgers
import Pertexo.Engine.CheckpointScopes

/-!
# Settling joins

## Decisions
-/

namespace Pertexo
namespace Engine

open Library
open Values

def HasArrived (entry : BranchLedgerEntry) : Prop :=
  entry.disposition = .arrived

instance (entry : BranchLedgerEntry) : Decidable (HasArrived entry) :=
  inferInstanceAs (Decidable (entry.disposition = .arrived))

def arrivals (ledger : List BranchLedgerEntry) : List BranchLedgerEntry :=
  ledger.filter fun entry => HasArrived entry

/-- What a policy demands of a ledger without pending branches. -/
def JoinPolicy.Holds (policy : JoinPolicy) (ledger : List BranchLedgerEntry) : Prop :=
  match policy with
  | .all => forall entry, entry ∈ ledger ->
      entry.disposition ≠ .failed ∧ entry.disposition ≠ .canceled
  | .any => exists entry, entry ∈ ledger ∧ HasArrived entry
  | .count required => required ≤ (arrivals ledger).length

/-- The number of branches that a satisfied policy selects. -/
def JoinPolicy.demandedSize (policy : JoinPolicy) (ledger : List BranchLedgerEntry) : Nat :=
  match policy with
  | .all => (arrivals ledger).length
  | .any => 1
  | .count required => required

/-- Why a policy does not hold: a failure comes before a cancellation. -/
def JoinPolicy.Reports (policy : JoinPolicy) (ledger : List BranchLedgerEntry) :
    UnsatisfiedReason -> Prop
  | .branchFailed => policy = .all ∧ exists entry, entry ∈ ledger ∧ entry.disposition = .failed
  | .branchCanceled => policy = .all ∧
      (forall entry, entry ∈ ledger -> entry.disposition ≠ .failed) ∧
      exists entry, entry ∈ ledger ∧ entry.disposition = .canceled
  | .insufficientArrivals => policy ≠ .all

def IsDecision (policy : JoinPolicy) (ledger : List BranchLedgerEntry) : JoinDecision -> Prop
  | .waiting => exists entry, entry ∈ ledger ∧ IsPending entry
  | .satisfied selected settled =>
      (forall entry, entry ∈ ledger -> ¬ IsPending entry) ∧ policy.Holds ledger ∧
        settled = sortLedger ledger ∧ selected.Nodup ∧
        selected.Sublist ((arrivals settled).map BranchLedgerEntry.branchId) ∧
        selected.length = policy.demandedSize ledger
  | .unsatisfied reason settled =>
      (forall entry, entry ∈ ledger -> ¬ IsPending entry) ∧ ¬ policy.Holds ledger ∧
        settled = sortLedger ledger ∧ policy.Reports ledger reason

section

variable {policy : JoinPolicy} {ledger : List BranchLedgerEntry}

theorem perm_arrivals_sortLedger (ledger : List BranchLedgerEntry) :
    (arrivals (sortLedger ledger)).Perm (arrivals ledger) :=
  (perm_sortLedger ledger).filter _

theorem filter_arrived_eq (ledger : List BranchLedgerEntry) :
    (ledger.filter fun entry => entry.disposition == .arrived) = arrivals ledger := by
  apply List.filter_congr
  intro entry _
  rw [Bool.eq_iff_iff, beq_iff_eq, decide_eq_true_iff]
  exact Iff.rfl

theorem any_sortLedger_iff {disposition : BranchDisposition} :
    ((sortLedger ledger).any fun entry => entry.disposition == disposition) = true ↔
      exists entry, entry ∈ ledger ∧ entry.disposition = disposition := by
  simp

theorem any_iff_arrivals_length : JoinPolicy.any.Holds ledger ↔ 1 ≤ (arrivals ledger).length := by
  rw [Nat.one_le_iff_ne_zero, ← Nat.pos_iff_ne_zero, List.length_pos_iff_exists_mem]
  simp only [arrivals, List.mem_filter, decide_eq_true_iff]
  exact Iff.rfl

theorem nodup_branchIds_of_sublist
    (hnodup : ((sortLedger ledger).map BranchLedgerEntry.branchId).Nodup)
    {selected : List BranchLedgerEntry}
    (hselected : selected.Sublist (arrivals (sortLedger ledger))) :
    (selected.map BranchLedgerEntry.branchId).Nodup := by
  have hsublist : selected.Sublist (sortLedger ledger) :=
    hselected.trans List.filter_sublist
  exact hnodup.sublist (hsublist.map _)

theorem isDecision_of_settleJoin {decision : JoinDecision}
    (h : settleJoin policy ledger = Except.ok decision) : IsDecision policy ledger decision := by
  unfold settleJoin at h
  dsimp only at h
  split at h
  · cases h
  · next hvalid =>
    rw [Bool.or_eq_true, not_or, Bool.not_eq_true', decide_eq_false_iff_not, not_not] at hvalid
    split at h
    · next hpending =>
      cases h
      exact any_sortLedger_iff.mp hpending
    · next hpending =>
      rw [any_sortLedger_iff] at hpending
      push Not at hpending
      rcases exists_of_bind_eq_ok h with ⟨required, hrequired, h⟩
      rw [filter_arrived_eq] at h
      have hlength := (perm_arrivals_sortLedger ledger).length_eq
      cases policy with
      | all =>
          cases hrequired
          simp only [beq_self_eq_true, Bool.true_and] at h
          split at h
          · next hfailed =>
            cases h
            rw [any_sortLedger_iff] at hfailed
            refine ⟨hpending, ?_, rfl, rfl, hfailed⟩
            intro hholds
            rcases hfailed with ⟨entry, hentry, hdisposition⟩
            exact (hholds entry hentry).left hdisposition
          · next hfailed =>
            rw [any_sortLedger_iff] at hfailed
            push Not at hfailed
            split at h
            · next hcanceled =>
              cases h
              rw [any_sortLedger_iff] at hcanceled
              refine ⟨hpending, ?_, rfl, rfl, hfailed, hcanceled⟩
              intro hholds
              rcases hcanceled with ⟨entry, hentry, hdisposition⟩
              exact (hholds entry hentry).right hdisposition
            · next hcanceled =>
              rw [any_sortLedger_iff] at hcanceled
              push Not at hcanceled
              rw [if_neg (Nat.not_lt_zero _), if_pos trivial] at h
              cases h
              refine ⟨hpending, ?_, rfl, nodup_branchIds_of_sublist hvalid.left
                (List.Sublist.refl _), List.Sublist.refl _, ?_⟩
              · intro entry hentry
                exact ⟨hfailed entry hentry, hcanceled entry hentry⟩
              · rw [List.length_map, hlength]
                rfl
      | any =>
          cases hrequired
          rw [if_neg (by simp), if_neg (by simp)] at h
          split at h
          · next hfew =>
            cases h
            refine ⟨hpending, ?_, rfl, JoinPolicy.noConfusion⟩
            rw [any_iff_arrivals_length, ← hlength]
            exact Nat.not_le.mpr hfew
          · next henough =>
            rw [if_neg (by simp)] at h
            cases h
            refine ⟨hpending, ?_, rfl, nodup_branchIds_of_sublist hvalid.left
              (List.take_sublist _ _), (List.take_sublist _ _).map _, ?_⟩
            · rw [any_iff_arrivals_length, ← hlength]
              exact Nat.not_lt.mp henough
            · rw [List.length_map, List.length_take]
              exact Nat.min_eq_left (Nat.not_lt.mp henough)
      | count count =>
          have hcount : required = count := by
            unfold requiredArrivals at hrequired
            dsimp only at hrequired
            split at hrequired
            · cases hrequired
            · exact (Except.ok.inj hrequired).symm
          rw [if_neg (by simp), if_neg (by simp), hcount] at h
          split at h
          · next hfew =>
            cases h
            refine ⟨hpending, ?_, rfl, JoinPolicy.noConfusion⟩
            show ¬ count ≤ _
            rw [← hlength]
            exact Nat.not_le.mpr hfew
          · next henough =>
            rw [if_neg (by simp)] at h
            cases h
            refine ⟨hpending, ?_, rfl, nodup_branchIds_of_sublist hvalid.left
              (List.take_sublist _ _), (List.take_sublist _ _).map _, ?_⟩
            · show count ≤ _
              rw [← hlength]
              exact Nat.not_lt.mp henough
            · rw [List.length_map, List.length_take]
              exact Nat.min_eq_left (Nat.not_lt.mp henough)

/-- The branches of a join are distinct, and there are as many as a count policy asks for. -/
structure IsDeclared (policy : JoinPolicy) (ledger : List BranchLedgerEntry) : Prop where
  nonempty : ledger ≠ []
  nodup : (ledger.map BranchLedgerEntry.branchId).Nodup
  count : forall required, policy = .count required ->
    0 < required ∧ required ≤ ledger.length

theorem exists_settleJoin (h : IsDeclared policy ledger) :
    exists decision, settleJoin policy ledger = Except.ok decision := by
  have hnodup : ((sortLedger ledger).map BranchLedgerEntry.branchId).Nodup :=
    ((perm_sortLedger ledger).map _).nodup_iff.mpr h.nodup
  have hnonempty : (sortLedger ledger).isEmpty = false := by
    rw [List.isEmpty_eq_false_iff]
    intro hempty
    have hperm := perm_sortLedger ledger
    rw [hempty] at hperm
    exact h.nonempty hperm.symm.eq_nil
  have hrequired : exists required,
      requiredArrivals policy (sortLedger ledger).length = Except.ok required := by
    cases policy with
    | all => exact ⟨0, rfl⟩
    | any => exact ⟨1, rfl⟩
    | count count =>
        rcases h.count count rfl with ⟨hpos, hle⟩
        refine ⟨count, ?_⟩
        rw [(perm_sortLedger ledger).length_eq, requiredArrivals, if_neg]
        simp [Nat.pos_iff_ne_zero.mp hpos, hle]
  rcases hrequired with ⟨required, hrequired⟩
  unfold settleJoin
  dsimp only
  rw [if_neg (by simp [hnodup, hnonempty])]
  split
  · exact ⟨_, rfl⟩
  · rw [hrequired]
    dsimp only [bind, Except.bind]
    split
    · exact ⟨_, rfl⟩
    · split
      · exact ⟨_, rfl⟩
      · split
        · exact ⟨_, rfl⟩
        · exact ⟨_, rfl⟩

@[simp] theorem settleJoin_sortLedger (policy : JoinPolicy) (ledger : List BranchLedgerEntry) :
    settleJoin policy (sortLedger ledger) = settleJoin policy ledger := by
  unfold settleJoin
  rw [sortLedger_sortLedger]

end

/-!
## Stored joins
-/

theorem parseOptionalOutput_eq {label : String} {output parsed : Option OutputReference}
    (h : parseOptionalOutput label output = Except.ok parsed) : parsed = output := by
  cases output with
  | none => exact (Except.ok.inj h).symm
  | some output =>
      rcases exists_of_bind_eq_ok h with ⟨reference, hreference, h⟩
      cases h
      cases output with
      | «inline» attemptId | task taskId | call callId | reused nodeRunId | artifact artifactId =>
          rcases exists_of_bind_eq_ok hreference with ⟨_, _, h⟩
          cases h
          rfl

theorem parseLedgerEntry_eq {entry parsed : BranchLedgerEntry}
    (h : parseLedgerEntry entry = Except.ok parsed) : parsed = entry := by
  rcases exists_of_bind_eq_ok h with ⟨_, _, h⟩
  rcases exists_of_bind_eq_ok h with ⟨output, houtput, h⟩
  cases h
  rw [parseOptionalOutput_eq houtput]

theorem branchId_ne_of_parseLedgerEntry {entry parsed : BranchLedgerEntry}
    (h : parseLedgerEntry entry = Except.ok parsed) : entry.branchId ≠ "" := by
  rcases exists_of_bind_eq_ok h with ⟨_, hbranch, _⟩
  rw [assertCheckpoint_eq_ok_iff, bne_iff_ne] at hbranch
  exact hbranch

theorem parseLedger_eq_ok_iff {ledger parsed : List BranchLedgerEntry} :
    parseLedger ledger = Except.ok parsed ↔
      (forall entry, entry ∈ ledger -> parseLedgerEntry entry = Except.ok entry) ∧
        sortLedger ledger = parsed := by
  unfold parseLedger
  rw [bind_eq_ok_iff]
  constructor
  · rintro ⟨entries, hentries, h⟩
    have hread := mapM_eq_ok_iff.mp hentries
    have hsame : entries = ledger := by
      apply Eq.symm
      rw [← List.forall₂_eq_eq_eq]
      exact hread.imp fun entry parsed h => (parseLedgerEntry_eq h).symm
    rw [hsame] at hread h
    rw [List.forall₂_same] at hread
    exact ⟨hread, pure_eq_ok_iff.mp h⟩
  · rintro ⟨hread, hsorted⟩
    exact ⟨ledger, mapM_eq_ok_iff.mpr (List.forall₂_same.mpr hread),
      pure_eq_ok_iff.mpr hsorted⟩

/-- A join record as a checkpoint stores it: sorted, and decided as its ledger says. -/
structure IsStored (join : JoinState) : Prop where
  joinId : join.joinId ≠ ""
  joinInvocationKey : join.joinInvocationKey ≠ ""
  branchPath : assertBranchPath "join branch scope is invalid" "join branch scope is invalid"
    join.branchPath = Except.ok ()
  iterationPath : assertIterationPath "join iteration scope is invalid"
    "join iteration scope is invalid" join.iterationPath = Except.ok ()
  count : ((joinCountOf join.policy).all fun required =>
    isInteger required && 0 < required) = true
  entries : forall entry, entry ∈ join.ledger -> parseLedgerEntry entry = Except.ok entry
  sorted : sortLedger join.ledger = join.ledger
  nodup : (join.ledger.map BranchLedgerEntry.branchId).Nodup
  nonempty : join.ledger ≠ []
  fits : ((joinCountOf join.policy).all fun required => required <= join.ledger.length) = true
  single : join.selectedBranchIds = none ∨ join.unsatisfiedReasonCode = none
  selection : forall selected, join.selectedBranchIds = some selected ->
    settleJoin join.policy join.ledger = Except.ok (.satisfied selected join.ledger)
  failure : forall reason, join.unsatisfiedReasonCode = some reason ->
    settleJoin join.policy join.ledger = Except.ok (.unsatisfied reason join.ledger)

theorem hasNoPendingBranch_iff {ledger : List BranchLedgerEntry} :
    hasNoPendingBranch ledger = true ↔ forall entry, entry ∈ ledger -> ¬ IsPending entry := by
  simp [hasNoPendingBranch, IsPending]

theorem sortOrdinal_of_sublist {ledger : List BranchLedgerEntry} {selected : List String}
    (h : selected.Sublist ((sortLedger ledger).map BranchLedgerEntry.branchId)) :
    sortOrdinal selected = selected := by
  apply sortWith_of_pairwise
  apply List.Pairwise.sublist h
  rw [List.pairwise_map]
  exact comparesTotally_ledger.pairwise_sortWith ledger

theorem parseJoinSelection_of_settleJoin {policy : JoinPolicy}
    {ledger : List BranchLedgerEntry} {selected : List String}
    (hentries : forall entry, entry ∈ ledger -> parseLedgerEntry entry = Except.ok entry)
    (h : settleJoin policy ledger = Except.ok (.satisfied selected ledger)) :
    parseJoinSelection policy ledger (some selected) = Except.ok (some selected) := by
  rcases isDecision_of_settleJoin h with ⟨hpending, _, hsorted, hnodup, hsublist, _⟩
  have hall : selected.Sublist (ledger.map BranchLedgerEntry.branchId) :=
    hsublist.trans (List.filter_sublist.map _)
  have hnonempty : "" ∉ selected := by
    intro hempty
    rcases List.mem_map.mp (hall.subset hempty) with ⟨entry, hentry, hbranch⟩
    exact branchId_ne_of_parseLedgerEntry (hentries entry hentry) hbranch
  rw [hsorted] at hall
  have hunique : sortedUnique selected "selectedBranchIds" = Except.ok selected := by
    unfold sortedUnique
    rw [sortOrdinal_of_sublist hall]
    simp [hnonempty, hnodup, assertCheckpoint, assertThat, bind, Except.bind, pure, Except.pure]
  rw [parseJoinSelection, hunique]
  show (assertCheckpoint _ _ >>= fun _ => settleJoin policy ledger >>= _) = _
  rw [hasNoPendingBranch_iff.mpr hpending, h]
  simp [assertCheckpoint, assertThat, bind, Except.bind, pure, Except.pure]

theorem assertJoinFailure_of_settleJoin {policy : JoinPolicy}
    {ledger : List BranchLedgerEntry} {reason : UnsatisfiedReason}
    (h : settleJoin policy ledger = Except.ok (.unsatisfied reason ledger)) :
    assertJoinFailure policy ledger (some reason) = Except.ok () := by
  rcases isDecision_of_settleJoin h with ⟨hpending, _⟩
  unfold assertJoinFailure
  rw [hasNoPendingBranch_iff.mpr hpending, h]
  simp [assertCheckpoint, assertThat, bind, Except.bind]

/-- Reading a join sorts its ledger and its selection. -/
def JoinState.sortedRecord (join : JoinState) : JoinState :=
  { join with
    ledger := sortLedger join.ledger
    selectedBranchIds := join.selectedBranchIds.map sortOrdinal }

theorem parseJoinSelection_spec {policy : JoinPolicy} {ledger : List BranchLedgerEntry}
    {selection parsed : Option (List String)} (hsorted : sortLedger ledger = ledger)
    (h : parseJoinSelection policy ledger selection = Except.ok parsed) :
    parsed = selection.map sortOrdinal ∧ forall selected, parsed = some selected ->
      settleJoin policy ledger = Except.ok (.satisfied selected ledger) := by
  cases selection with
  | none =>
      cases h
      refine ⟨rfl, ?_⟩
      intro selected hselected
      cases hselected
  | some selection =>
      rw [parseJoinSelection] at h
      rcases exists_of_bind_eq_ok h with ⟨unique, hunique, h⟩
      rcases exists_of_bind_eq_ok h with ⟨_, _, h⟩
      rcases exists_of_bind_eq_ok h with ⟨decision, hdecision, h⟩
      rcases exists_of_bind_eq_ok h with ⟨_, hagrees, h⟩
      rcases exists_of_bind_eq_ok hunique with ⟨_, _, hunique⟩
      rcases exists_of_bind_eq_ok hunique with ⟨_, _, hunique⟩
      cases hunique
      cases h
      refine ⟨rfl, ?_⟩
      intro selected hselected
      cases hselected
      rw [assertCheckpoint_eq_ok_iff] at hagrees
      rw [hdecision]
      cases decision with
      | waiting => cases hagrees
      | unsatisfied reason settled => cases hagrees
      | satisfied expected settled =>
          rcases isDecision_of_settleJoin hdecision with ⟨_, _, hsettled, _⟩
          rw [hsettled, hsorted, eq_of_beq hagrees]

theorem assertJoinFailure_spec {policy : JoinPolicy} {ledger : List BranchLedgerEntry}
    {failure : Option UnsatisfiedReason} (hsorted : sortLedger ledger = ledger)
    (h : assertJoinFailure policy ledger failure = Except.ok ()) {reason : UnsatisfiedReason}
    (hreason : failure = some reason) :
    settleJoin policy ledger = Except.ok (.unsatisfied reason ledger) := by
  rw [hreason, assertJoinFailure] at h
  rcases exists_of_bind_eq_ok h with ⟨_, _, h⟩
  rcases exists_of_bind_eq_ok h with ⟨decision, hdecision, hagrees⟩
  rw [assertCheckpoint_eq_ok_iff] at hagrees
  rw [hdecision]
  cases decision with
  | waiting => cases hagrees
  | satisfied selected settled => cases hagrees
  | unsatisfied expected settled =>
      rcases isDecision_of_settleJoin hdecision with ⟨_, _, hsettled, _⟩
      rw [hsettled, hsorted, eq_of_beq hagrees]

theorem parseJoin_spec {join parsed : JoinState} (h : parseJoin join = Except.ok parsed) :
    parsed = join.sortedRecord ∧ IsStored parsed := by
  rcases exists_of_bind_eq_ok h with ⟨_, hjoinId, h⟩
  rcases exists_of_bind_eq_ok h with ⟨_, hkey, h⟩
  rcases exists_of_bind_eq_ok h with ⟨_, hbranchPath, h⟩
  rcases exists_of_bind_eq_ok h with ⟨_, hiterationPath, h⟩
  rcases exists_of_bind_eq_ok h with ⟨_, hcount, h⟩
  rcases exists_of_bind_eq_ok h with ⟨ledger, hledger, h⟩
  rcases exists_of_bind_eq_ok h with ⟨_, hnodup, h⟩
  rcases exists_of_bind_eq_ok h with ⟨_, hnonempty, h⟩
  rcases exists_of_bind_eq_ok h with ⟨_, hfits, h⟩
  rcases exists_of_bind_eq_ok h with ⟨_, hsingle, h⟩
  rcases exists_of_bind_eq_ok h with ⟨selection, hselection, h⟩
  rcases exists_of_bind_eq_ok h with ⟨_, hfailure, h⟩
  rw [pure_eq_ok_iff] at h
  rw [parseLedger_eq_ok_iff] at hledger
  rcases hledger with ⟨hentries, hsortedLedger⟩
  have hsorted : sortLedger ledger = ledger := by
    rw [← hsortedLedger, sortLedger_sortLedger]
  rcases parseJoinSelection_spec hsorted hselection with ⟨hselected, hsettled⟩
  rw [assertCheckpoint_eq_ok_iff] at hjoinId hkey hcount hnodup hnonempty hfits hsingle
  constructor
  · rw [← h, JoinState.sortedRecord, hsortedLedger, hselected]
  · rw [← h]
    constructor
    · exact bne_iff_ne.mp hjoinId
    · exact bne_iff_ne.mp hkey
    · exact hbranchPath
    · exact hiterationPath
    · exact hcount
    · intro entry hentry
      rw [← hsortedLedger] at hentry
      exact hentries entry (mem_sortLedger.mp hentry)
    · exact hsorted
    · exact of_decide_eq_true hnodup
    · simpa using hnonempty
    · exact hfits
    · rw [hselected]
      simpa using hsingle
    · exact hsettled
    · intro reason hreason
      exact assertJoinFailure_spec hsorted hfailure hreason

/-- A stored join is read back as it is. -/
theorem IsStored.parseJoin_eq {join : JoinState} (h : IsStored join) :
    parseJoin join = Except.ok join := by
  have hledger : parseLedger join.ledger = Except.ok join.ledger :=
    parseLedger_eq_ok_iff.mpr ⟨h.entries, h.sorted⟩
  have hselection : parseJoinSelection join.policy join.ledger join.selectedBranchIds =
      Except.ok join.selectedBranchIds := by
    cases hselected : join.selectedBranchIds with
    | none => rfl
    | some selected => exact parseJoinSelection_of_settleJoin h.entries (h.selection _ hselected)
  have hfailure : assertJoinFailure join.policy join.ledger join.unsatisfiedReasonCode =
      Except.ok () := by
    cases hreason : join.unsatisfiedReasonCode with
    | none => rfl
    | some reason => exact assertJoinFailure_of_settleJoin (h.failure _ hreason)
  unfold parseJoin
  rw [h.branchPath, h.iterationPath, hledger]
  dsimp only [bind, Except.bind]
  rw [hselection, hfailure]
  simp [assertCheckpoint, assertThat, h.joinId, h.joinInvocationKey, h.count, h.nodup,
    h.nonempty, h.fits, h.single, pure, Except.pure]

/-!
## Histories of joins
-/

def observedJoin (observation : JoinDeclaredObservation) : JoinState :=
  { joinInvocationKey := observation.joinInvocationKey
    joinId := observation.joinId
    branchPath := observation.branchPath
    iterationPath := observation.iterationPath
    policy := observation.policy
    ledger := (sortOrdinal observation.branchIds).map fun branchId =>
      { branchId := branchId, disposition := .pending } }

theorem declaredJoin_eq_ok {observation : JoinDeclaredObservation} {join : JoinState}
    (h : declaredJoin observation = Except.ok join) :
    join = observedJoin observation ∧ observation.joinId ≠ "" ∧
      sortOrdinal observation.branchIds ≠ [] ∧ "" ∉ sortOrdinal observation.branchIds ∧
      (sortOrdinal observation.branchIds).Nodup ∧
      forall required, observation.policy = .count required ->
        0 < required ∧ required ≤ (sortOrdinal observation.branchIds).length := by
  unfold declaredJoin at h
  split at h
  · cases h
  · next hid =>
    dsimp only at h
    split at h
    · cases h
    · next hbranches =>
      simp only [Bool.or_eq_true, not_or, Bool.not_eq_true', decide_eq_false_iff_not,
        not_not, List.isEmpty_iff, List.contains_iff_mem] at hbranches
      rcases hbranches with ⟨⟨hnonempty, hnamed⟩, hnodup⟩
      have hjoin : join = observedJoin observation ∧
          forall required, observation.policy = .count required ->
            0 < required ∧ required ≤ (sortOrdinal observation.branchIds).length := by
        cases hpolicy : observation.policy with
        | all | any =>
            rw [hpolicy] at h
            cases h
            refine ⟨by rw [observedJoin, hpolicy], ?_⟩
            intro required hcount
            cases hcount
        | count count =>
            rw [hpolicy] at h
            dsimp only at h
            split at h
            · cases h
            · next hvalid =>
              cases h
              simp only [Bool.or_eq_true, not_or, beq_iff_eq, decide_eq_true_iff,
                not_lt] at hvalid
              refine ⟨by rw [observedJoin, hpolicy], ?_⟩
              intro required hcount
              cases hcount
              exact ⟨Nat.pos_of_ne_zero hvalid.left, hvalid.right⟩
      exact ⟨hjoin.left, by simpa using hid, hnonempty, hnamed, hnodup, hjoin.right⟩

/-- What a checkpoint checks of a join that its declaration does not. -/
structure IsReadable (observation : JoinDeclaredObservation) : Prop where
  joinInvocationKey : observation.joinInvocationKey ≠ ""
  branchPath : assertBranchPath "join branch scope is invalid" "join branch scope is invalid"
    observation.branchPath = Except.ok ()
  iterationPath : assertIterationPath "join iteration scope is invalid"
    "join iteration scope is invalid" observation.iterationPath = Except.ok ()
  count : (joinCountOf observation.policy).all isInteger = true

theorem isStored_of_declaredJoin {observation : JoinDeclaredObservation} {join : JoinState}
    (hreadable : IsReadable observation) (h : declaredJoin observation = Except.ok join) :
    IsStored join := by
  rcases declaredJoin_eq_ok h with ⟨rfl, hid, hnonempty, hnamed, hnodup, hcount⟩
  have hbranches : (observedJoin observation).ledger.map BranchLedgerEntry.branchId =
      sortOrdinal observation.branchIds := by
    simp [observedJoin, Function.comp_def]
  constructor
  · exact hid
  · exact hreadable.joinInvocationKey
  · exact hreadable.branchPath
  · exact hreadable.iterationPath
  · have hinteger := hreadable.count
    show ((joinCountOf observation.policy).all _) = true
    cases hpolicy : observation.policy with
    | all | any => rfl
    | count required =>
        rw [hpolicy] at hinteger
        have hpositive := (hcount required hpolicy).left
        simpa [joinCountOf, hpositive] using hinteger
  · intro entry hentry
    rcases List.mem_map.mp hentry with ⟨branchId, hbranch, rfl⟩
    have hne : branchId ≠ "" := fun heq => hnamed (heq ▸ hbranch)
    simp [parseLedgerEntry, parseOptionalOutput, assertCheckpoint, assertThat, hne, bind,
      Except.bind, pure, Except.pure]
  · apply sortWith_of_pairwise
    show List.Pairwise _ (List.map _ _)
    rw [List.pairwise_map]
    exact comparesTotally_ordinal.pairwise_sortWith observation.branchIds
  · rw [hbranches]
    exact hnodup
  · simpa [observedJoin] using hnonempty
  · show ((joinCountOf observation.policy).all _) = true
    cases hpolicy : observation.policy with
    | all | any => rfl
    | count required =>
        have hfits := (hcount required hpolicy).right
        simpa [joinCountOf, observedJoin] using hfits
  · exact Or.inl rfl
  · intro selected hselected
    cases hselected
  · intro reason hreason
    cases hreason

/-- A join as it is declared, after recorded dispositions, and settled. -/
inductive JoinHistory : JoinState -> Prop where
  | declared {observation : JoinDeclaredObservation} {join : JoinState}
      (hreadable : IsReadable observation)
      (hdeclared : declaredJoin observation = Except.ok join) : JoinHistory join
  | recorded {join : JoinState} {update : BranchLedgerEntry} {ledger : List BranchLedgerEntry}
      (hjoin : JoinHistory join) (hterminal : ¬ IsPending update)
      (hread : parseLedgerEntry update = Except.ok update)
      (hledger : recordBranchDisposition join.ledger update = Except.ok ledger) :
      JoinHistory { join with ledger := ledger }
  | satisfied {join : JoinState} {selected : List String} {ledger : List BranchLedgerEntry}
      (hjoin : JoinHistory join) (hundecided : join.unsatisfiedReasonCode = none)
      (hdecision : settleJoin join.policy join.ledger = Except.ok (.satisfied selected ledger)) :
      JoinHistory { join with ledger := ledger, selectedBranchIds := some selected }
  | unsatisfied {join : JoinState} {reason : UnsatisfiedReason}
      {ledger : List BranchLedgerEntry}
      (hjoin : JoinHistory join) (hundecided : join.selectedBranchIds = none)
      (hdecision : settleJoin join.policy join.ledger = Except.ok (.unsatisfied reason ledger)) :
      JoinHistory { join with ledger := ledger, unsatisfiedReasonCode := some reason }

theorem recordBranchDisposition_spec {ledger recorded : List BranchLedgerEntry}
    {update : BranchLedgerEntry}
    (h : recordBranchDisposition ledger update = Except.ok recorded) :
    (recorded.map BranchLedgerEntry.branchId).Perm (ledger.map BranchLedgerEntry.branchId) ∧
      sortLedger recorded = recorded ∧
      (forall entry, entry ∈ recorded -> entry ∈ ledger ∨ entry = update) ∧
      ((forall entry, entry ∈ ledger -> ¬ IsPending entry) -> recorded = sortLedger ledger) := by
  unfold recordBranchDisposition at h
  split at h
  · cases h
  · next existing hfind =>
    split at h
    · split at h
      · cases h
        refine ⟨(perm_sortLedger ledger).map _, sortLedger_sortLedger ledger, ?_, fun _ => rfl⟩
        intro entry hentry
        exact Or.inl (mem_sortLedger.mp hentry)
      · cases h
    · next hpending =>
      cases h
      refine ⟨?_, sortLedger_sortLedger _, ?_, ?_⟩
      · apply ((perm_sortLedger _).map _).trans
        rw [List.map_map]
        apply List.Perm.of_eq
        apply List.map_congr_left
        intro entry _
        show BranchLedgerEntry.branchId (if _ then _ else _) = _
        split
        · next hbranch => exact (eq_of_beq hbranch).symm
        · rfl
      · intro entry hentry
        rcases List.mem_map.mp (mem_sortLedger.mp hentry) with ⟨old, hold, rfl⟩
        split
        · exact Or.inr rfl
        · exact Or.inl hold
      · intro hterminal
        rw [bne_iff_ne, not_not] at hpending
        exact absurd hpending (hterminal existing (List.mem_of_find?_eq_some hfind))

theorem IsStored.recorded {join : JoinState} (h : IsStored join) {update : BranchLedgerEntry}
    {ledger : List BranchLedgerEntry} (hread : parseLedgerEntry update = Except.ok update)
    (hledger : recordBranchDisposition join.ledger update = Except.ok ledger) :
    IsStored { join with ledger := ledger } := by
  rcases recordBranchDisposition_spec hledger with ⟨hbranches, hsorted, hentries, hsettled⟩
  have hlength : ledger.length = join.ledger.length := by
    have hperm := hbranches.length_eq
    rwa [List.length_map, List.length_map] at hperm
  -- a decided join has no pending branch, so its ledger stays as it is
  have hdecided : forall decision, settleJoin join.policy join.ledger = Except.ok decision ->
      decision ≠ .waiting -> ledger = join.ledger := by
    intro decision hdecision hnot
    rw [← h.sorted]
    apply hsettled
    have hdemanded := isDecision_of_settleJoin hdecision
    cases decision with
    | waiting => exact absurd rfl hnot
    | satisfied selected settled => exact hdemanded.left
    | unsatisfied reason settled => exact hdemanded.left
  constructor
  · exact h.joinId
  · exact h.joinInvocationKey
  · exact h.branchPath
  · exact h.iterationPath
  · exact h.count
  · intro entry hentry
    rcases hentries entry hentry with hold | rfl
    · exact h.entries entry hold
    · exact hread
  · exact hsorted
  · exact hbranches.nodup_iff.mpr h.nodup
  · intro hempty
    have hnil : ledger = [] := hempty
    rw [hnil, List.length_nil, eq_comm, List.length_eq_zero_iff] at hlength
    exact h.nonempty hlength
  · show ((joinCountOf join.policy).all fun required => required <= ledger.length) = true
    rw [hlength]
    exact h.fits
  · exact h.single
  · intro selected hselected
    have hdecision := h.selection selected hselected
    have hsame := hdecided _ hdecision JoinDecision.noConfusion
    show settleJoin join.policy ledger = Except.ok (.satisfied selected ledger)
    rw [hsame]
    exact hdecision
  · intro reason hreason
    have hdecision := h.failure reason hreason
    have hsame := hdecided _ hdecision JoinDecision.noConfusion
    show settleJoin join.policy ledger = Except.ok (.unsatisfied reason ledger)
    rw [hsame]
    exact hdecision

theorem JoinHistory.isStored {join : JoinState} (h : JoinHistory join) : IsStored join := by
  induction h with
  | declared hreadable hdeclared => exact isStored_of_declaredJoin hreadable hdeclared
  | recorded _ _ hread hledger ih => exact ih.recorded hread hledger
  | @satisfied join selected ledger _ hundecided hdecision ih =>
      rcases isDecision_of_settleJoin hdecision with ⟨_, _, hsettled, _⟩
      rw [ih.sorted] at hsettled
      rw [hsettled] at hdecision ⊢
      exact { ih with
        single := Or.inr hundecided
        selection := fun selected' hselected => by
          cases hselected
          exact hdecision
        failure := fun reason hreason => by
          rw [show join.unsatisfiedReasonCode = some reason from hreason] at hundecided
          cases hundecided }
  | @unsatisfied join reason ledger _ hundecided hdecision ih =>
      rcases isDecision_of_settleJoin hdecision with ⟨_, _, hsettled, _⟩
      rw [ih.sorted] at hsettled
      rw [hsettled] at hdecision ⊢
      exact { ih with
        single := Or.inl hundecided
        selection := fun selected hselected => by
          rw [show join.selectedBranchIds = some selected from hselected] at hundecided
          cases hundecided
        failure := fun reason' hreason => by
          cases hreason
          exact hdecision }

/-!
## Settling pending joins
-/

theorem history_settlePendingJoin {occurredAt : Timestamp} {state after : WorkflowTransition}
    {join : JoinState} (hjoin : JoinHistory join)
    (hstate : forall other, other ∈ state.joins.items -> JoinHistory other)
    (h : settlePendingJoin occurredAt state join = Except.ok after) :
    forall other, other ∈ after.joins.items -> JoinHistory other := by
  unfold settlePendingJoin at h
  split at h
  · cases h
    exact hstate
  · next hundecided =>
    rw [Bool.or_eq_true, not_or, Option.not_isSome_iff_eq_none,
      Option.not_isSome_iff_eq_none] at hundecided
    rcases exists_of_bind_eq_ok h with ⟨decision, hdecision, h⟩
    cases decision with
    | waiting =>
        cases h
        exact hstate
    | satisfied selected ledger =>
        dsimp only at h
        split at h
        · cases h
        · next invocation _ =>
          have hsettled := JoinHistory.satisfied hjoin hundecided.right hdecision
          have hset : after.joins = state.joins.set
              { join with ledger := ledger, selectedBranchIds := some selected } := by
            rw [pure_eq_ok_iff] at h
            rw [← h, settleSatisfiedJoin]
            dsimp only
            split
            · rfl
            · rfl
          intro other hother
          rw [hset, ← Keyed.mem_def, Keyed.mem_set] at hother
          rcases hother with rfl | ⟨hold, _⟩
          · exact hsettled
          · exact hstate other hold
    | unsatisfied reason ledger =>
        dsimp only at h
        split at h
        · cases h
        · next invocation _ =>
          have hsettled := JoinHistory.unsatisfied hjoin hundecided.left hdecision
          have hset : after.joins = state.joins.set
              { join with ledger := ledger, unsatisfiedReasonCode := some reason } := by
            rw [pure_eq_ok_iff] at h
            rw [← h]
            unfold settleUnsatisfiedJoin
            dsimp only
            split
            · rfl
            · rfl
          intro other hother
          rw [hset, ← Keyed.mem_def, Keyed.mem_set] at hother
          rcases hother with rfl | ⟨hold, _⟩
          · exact hsettled
          · exact hstate other hold

theorem history_settlePendingJoins {occurredAt : Timestamp} {state after : WorkflowTransition}
    (hstate : forall join, join ∈ state.joins.items -> JoinHistory join)
    (h : settlePendingJoins state occurredAt = Except.ok after) :
    forall join, join ∈ after.joins.items -> JoinHistory join := by
  apply foldlM_invariant (fun state : WorkflowTransition =>
    forall join, join ∈ state.joins.items -> JoinHistory join) hstate _ h
  intro join hjoin before next hbefore hnext
  exact history_settlePendingJoin (hstate join (mem_sortWith.mp hjoin)) hbefore hnext

/-!
## Order-free settlement
-/

def settlement (policy : JoinPolicy) (declared updates : List BranchLedgerEntry) :
    EngineResult (List BranchLedgerEntry × JoinDecision) := do
  let ledger ← recordDispositions declared updates
  let decision ← settleJoin policy ledger
  pure (ledger, decision)

def AreTerminal (updates : List BranchLedgerEntry) : Prop :=
  forall update, update ∈ updates -> ¬ IsPending update

/-- Recorded dispositions are kept: a repeat changes nothing, and a conflict is refused. -/
structure KeepsDispositions (updates ledger : List BranchLedgerEntry) : Prop where
  repeated : forall update, update ∈ updates ->
    recordBranchDisposition ledger update = Except.ok ledger
  conflicting : forall update, update ∈ updates -> forall other,
    other.branchId = update.branchId -> other ≠ update ->
      exists e, recordBranchDisposition ledger other = Except.error e

/-- The recorded decision of a join is the one that its policy makes again. -/
structure IsReproduced (join : JoinState) : Prop where
  selection : forall recorded, join.selectedBranchIds = some recorded ->
    exists selected ledger, selected.Perm recorded ∧
      settleJoin join.policy join.ledger = Except.ok (.satisfied selected ledger)
  failure : forall reason, join.unsatisfiedReasonCode = some reason ->
    exists ledger, settleJoin join.policy join.ledger = Except.ok (.unsatisfied reason ledger)

section

variable {declared updates : List BranchLedgerEntry}

theorem settlement_congr (hpending : forall entry, entry ∈ declared -> IsPending entry)
    (hterminal : AreTerminal updates) {more : List BranchLedgerEntry}
    (hsame : forall update, update ∈ updates ↔ update ∈ more) (policy : JoinPolicy) :
    (settlement policy declared updates).toOption = (settlement policy declared more).toOption := by
  have hmore : AreTerminal more :=
    fun update hupdate => hterminal update ((hsame update).mpr hupdate)
  have hspec := recordDispositions_spec hpending hterminal
  have hmoreSpec := recordDispositions_spec hpending hmore
  unfold settlement
  by_cases hconsistent : AreConsistent declared updates
  · have hmoreConsistent := hconsistent.congr hsame
    have hledger : ledgerAfter declared updates = ledgerAfter declared more := by
      have hempty : updates.isEmpty = more.isEmpty := by
        rw [Bool.eq_iff_iff, List.isEmpty_iff, List.isEmpty_iff, List.eq_nil_iff_forall_not_mem,
          List.eq_nil_iff_forall_not_mem]
        constructor
        · intro hnone update hupdate
          exact hnone update ((hsame update).mpr hupdate)
        · intro hnone update hupdate
          exact hnone update ((hsame update).mp hupdate)
      unfold ledgerAfter
      rw [hempty, List.map_congr_left fun entry _ =>
        hconsistent.recordedEntry_congr hmoreConsistent hsame entry]
    rw [hspec.left hconsistent, hmoreSpec.left hmoreConsistent, hledger]
  · have hmoreConsistent : ¬ AreConsistent declared more :=
      fun hmore => hconsistent (hmore.congr fun update => (hsame update).symm)
    rcases hspec.right hconsistent with ⟨e, he⟩
    rcases hmoreSpec.right hmoreConsistent with ⟨e', he'⟩
    rw [he, he']
    rfl

theorem consistent_of_recordDispositions
    (hpending : forall entry, entry ∈ declared -> IsPending entry)
    (hterminal : AreTerminal updates) {ledger : List BranchLedgerEntry}
    (h : recordDispositions declared updates = Except.ok ledger) :
    AreConsistent declared updates ∧ ledger = ledgerAfter declared updates := by
  have hspec := recordDispositions_spec hpending hterminal
  by_cases hconsistent : AreConsistent declared updates
  · rw [hspec.left hconsistent] at h
    exact ⟨hconsistent, (Except.ok.inj h).symm⟩
  · rcases hspec.right hconsistent with ⟨e, he⟩
    rw [he] at h
    cases h

theorem keepsDispositions_of_recordDispositions
    (hpending : forall entry, entry ∈ declared -> IsPending entry)
    (hterminal : AreTerminal updates) {ledger : List BranchLedgerEntry}
    (h : recordDispositions declared updates = Except.ok ledger) :
    KeepsDispositions updates ledger := by
  rcases consistent_of_recordDispositions hpending hterminal h with ⟨hconsistent, rfl⟩
  constructor
  · intro update hupdate
    have hagain := recordBranchDisposition_again hconsistent hterminal hupdate rfl
    rw [if_pos rfl] at hagain
    exact hagain
  · intro update hupdate other hbranch hne
    have hagain := recordBranchDisposition_again hconsistent hterminal hupdate hbranch.symm
    rw [if_neg (Ne.symm hne)] at hagain
    exact hagain

theorem IsDeclared.ledgerAfter {policy : JoinPolicy} (h : IsDeclared policy declared)
    (updates : List BranchLedgerEntry) : IsDeclared policy (ledgerAfter declared updates) := by
  have hbranches : ((Engine.ledgerAfter declared updates).map BranchLedgerEntry.branchId).Perm
      (declared.map BranchLedgerEntry.branchId) := by
    unfold Engine.ledgerAfter
    split
    · exact List.Perm.refl _
    · apply ((perm_sortLedger _).map _).trans
      rw [List.map_map]
      apply List.Perm.of_eq
      apply List.map_congr_left
      intro entry _
      exact branchId_recordedEntry updates entry
  have hlength := hbranches.length_eq
  rw [List.length_map, List.length_map] at hlength
  constructor
  · intro hempty
    rw [hempty, List.length_nil, eq_comm, List.length_eq_zero_iff] at hlength
    exact h.nonempty hlength
  · exact hbranches.nodup_iff.mpr h.nodup
  · rw [hlength]
    exact h.count

theorem declaredJoin_spec {observation : JoinDeclaredObservation} {join : JoinState}
    (h : declaredJoin observation = Except.ok join) :
    IsDeclared join.policy join.ledger ∧
      forall entry, entry ∈ join.ledger -> IsPending entry := by
  rcases declaredJoin_eq_ok h with ⟨rfl, _, hnonempty, _, hnodup, hcount⟩
  refine ⟨⟨?_, ?_, ?_⟩, ?_⟩
  · simpa [observedJoin] using hnonempty
  · simpa [observedJoin, Function.comp_def] using hnodup
  · simpa [observedJoin] using hcount
  · intro entry hentry
    rcases List.mem_map.mp hentry with ⟨branchId, _, rfl⟩
    rfl

theorem isReproduced_of_parseJoin {join parsed : JoinState}
    (h : parseJoin join = Except.ok parsed) : IsReproduced join := by
  rcases parseJoin_spec h with ⟨rfl, hstored⟩
  constructor
  · intro recorded hrecorded
    refine ⟨sortOrdinal recorded, sortLedger join.ledger, perm_sortWith _ recorded, ?_⟩
    have hselected : join.sortedRecord.selectedBranchIds = some (sortOrdinal recorded) := by
      rw [JoinState.sortedRecord, hrecorded]
      rfl
    have hdecision := hstored.selection _ hselected
    rw [← settleJoin_sortLedger]
    exact hdecision
  · intro reason hreason
    have hdecision := hstored.failure reason hreason
    refine ⟨sortLedger join.ledger, ?_⟩
    rw [← settleJoin_sortLedger]
    exact hdecision

end

/--
A declared join settles in the same way whatever the order of its dispositions,
and the records that this leaves are the ones that a checkpoint is read with.
-/
theorem join_settlement {observation : JoinDeclaredObservation} {join : JoinState}
    (hdeclared : declaredJoin observation = Except.ok join) :
    (forall updates more, AreTerminal updates ->
        (forall update, update ∈ updates ↔ update ∈ more) ->
      (settlement join.policy join.ledger updates).toOption =
        (settlement join.policy join.ledger more).toOption) ∧
    (forall updates, AreTerminal updates -> AreConsistent join.ledger updates ->
      recordDispositions join.ledger updates = Except.ok (ledgerAfter join.ledger updates)) ∧
    (forall updates ledger, AreTerminal updates ->
      recordDispositions join.ledger updates = Except.ok ledger ->
        KeepsDispositions updates ledger ∧
          exists decision, settleJoin join.policy ledger = Except.ok decision ∧
            IsDecision join.policy ledger decision) ∧
    (forall state after occurredAt,
      (forall other, other ∈ state.joins.items -> JoinHistory other) ->
        settlePendingJoins state occurredAt = Except.ok after ->
          forall other, other ∈ after.joins.items -> parseJoin other = Except.ok other) ∧
    forall record, ¬ IsReproduced record -> exists e, parseJoin record = Except.error e := by
  rcases declaredJoin_spec hdeclared with ⟨hbranches, hpending⟩
  refine ⟨?_, ?_, ?_, ?_, ?_⟩
  · intro updates more hterminal hsame
    exact settlement_congr hpending hterminal hsame join.policy
  · intro updates hterminal hconsistent
    exact (recordDispositions_spec hpending hterminal).left hconsistent
  · intro updates ledger hterminal hledger
    refine ⟨keepsDispositions_of_recordDispositions hpending hterminal hledger, ?_⟩
    rcases consistent_of_recordDispositions hpending hterminal hledger with ⟨_, rfl⟩
    rcases exists_settleJoin (hbranches.ledgerAfter updates) with ⟨decision, hdecision⟩
    exact ⟨decision, hdecision, isDecision_of_settleJoin hdecision⟩
  · intro state after occurredAt hstate hsettled other hother
    exact (history_settlePendingJoins hstate hsettled other hother).isStored.parseJoin_eq
  · intro record hrecord
    cases hparsed : parseJoin record with
    | error e => exact ⟨e, rfl⟩
    | ok parsed => exact absurd (isReproduced_of_parseJoin hparsed) hrecord

def pairObservation : JoinDeclaredObservation :=
  { joinId := "merge"
    joinInvocationKey := "merge-key"
    branchPath := []
    iterationPath := []
    policy := .any
    branchIds := ["right", "left"] }

def pairJoin (left right : BranchDisposition) : JoinState :=
  { joinInvocationKey := "merge-key"
    joinId := "merge"
    branchPath := []
    iterationPath := []
    policy := .any
    ledger :=
      [{ branchId := "left", disposition := left }, { branchId := "right", disposition := right }] }

def leftFailed : BranchLedgerEntry := { branchId := "left", disposition := .failed }

def rightArrived : BranchLedgerEntry := { branchId := "right", disposition := .arrived }

def pairTransition (join : JoinState) : WorkflowTransition :=
  { current :=
      { workflowVersionId := "00000000-0000-4000-8000-000000000001"
        revision := 1
        runStatus := .running
        nextEventSequence := 2
        readySet := []
        admittedInvocationKeys := []
        invocations := []
        joins := []
        loops := []
        remainingIterationBudget := 0
        cancelRequested := false
        deadlineExpired := false
        branchSelections := [] }
    graph :=
      { failureRoutes := none, level := { nodes := [], edges := [] }, structuredBodies := [] }
    schedulerNodes := Keyed.empty
    invocations := Keyed.ofList
      [{ invocationKey := "merge-key", nodeId := "merge", status := .pending, attemptNumber := 0 }]
    joins := Keyed.ofList [join]
    loops := Keyed.empty
    branchSelections := []
    remainingIterationBudget := 0
    cancelRequested := false
    deadlineExpired := false
    deadlineOccurredAt := none
    runStatus := .running }

theorem pairHistory : JoinHistory (pairJoin .failed .arrived) := by
  have hdeclared : JoinHistory (pairJoin .pending .pending) :=
    @JoinHistory.declared pairObservation _ ⟨by decide, rfl, rfl, rfl⟩ rfl
  have hleft : JoinHistory (pairJoin .failed .pending) :=
    @JoinHistory.recorded _ leftFailed _ hdeclared BranchDisposition.noConfusion rfl rfl
  exact @JoinHistory.recorded _ rightArrived _ hleft BranchDisposition.noConfusion rfl rfl

theorem join_settlement_sample :
    (settlement .any (pairJoin .pending .pending).ledger [leftFailed, rightArrived]).toOption =
        (settlement .any (pairJoin .pending .pending).ledger
          [rightArrived, leftFailed, rightArrived]).toOption ∧
      KeepsDispositions [leftFailed, rightArrived] (pairJoin .failed .arrived).ledger ∧
      (exists after, settlePendingJoins (pairTransition (pairJoin .failed .arrived)) 0 =
        Except.ok after ∧
          forall other, other ∈ after.joins.items -> parseJoin other = Except.ok other) ∧
      exists e, parseJoin { pairJoin .failed .arrived with selectedBranchIds := some ["left"] } =
        Except.error e := by
  have hfacts := @join_settlement pairObservation (pairJoin .pending .pending) rfl
  rcases hfacts with ⟨horder, _, hkept, hsettled, hrejected⟩
  have hterminal : AreTerminal [leftFailed, rightArrived] := by
    intro update hupdate
    rcases List.mem_pair.mp hupdate with rfl | rfl
    · exact BranchDisposition.noConfusion
    · exact BranchDisposition.noConfusion
  refine ⟨?_, ?_, ?_, ?_⟩
  · apply horder _ _ hterminal
    intro update
    simp only [List.mem_cons, List.not_mem_nil, or_false]
    tauto
  · exact (hkept _ _ hterminal rfl).left
  · refine ⟨_, rfl, hsettled (pairTransition (pairJoin .failed .arrived)) _ 0 ?_ rfl⟩
    intro other hother
    rw [List.mem_singleton.mp hother]
    exact pairHistory
  · apply hrejected
    intro hreproduced
    rcases hreproduced.selection ["left"] rfl with ⟨selected, ledger, hperm, hdecision⟩
    have hselected : selected = ["right"] := by
      cases hdecision
      rfl
    rw [hselected] at hperm
    exact absurd (hperm.mem_iff.mp (List.mem_singleton_self "right")) (by decide)

end Engine
end Pertexo
