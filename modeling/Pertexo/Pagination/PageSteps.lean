import Pertexo.Pagination.InlineSizes

/-!
# Steps of a run

A page is read, its successor is decided, and the output is checked before the items are taken.
-/

namespace Pertexo
namespace Pagination

open Library
open Values
open Canonical

section

variable {Url Number Store Failure : Type} [ScriptNumber Number]

structure FetchedPage (Number : Type) where
  url : ScriptString
  response : ServerResponse Number
  body : Page Number
  items : List (BoundedJsonValue Number)

/-- The page that the server gives for a request, with its items. -/
def readAt (input : PaginationInput Url Number Store Failure) (first : Url) (page : Nat)
    (url : ScriptString) : Except (RunFailure Failure) (FetchedPage Number) := do
  let (response, body) ← fetchPage input url (input.platform.origin first) page
  let items ← itemsOf input.pagination body page
  return { url, response, body, items }

/-- What a page makes of the state, once it is read. -/
def pageOutcome (input : PaginationInput Url Number Store Failure) (first : Url) (page : Nat)
    (state : PaginationState Number Store) (fetched : FetchedPage Number) :
    Except (RunFailure Failure) (PageEnd Number Store) := do
  let counted ← countItems input state fetched.items
  let (next, complete) ←
    (decideNext input first state.seen page fetched.body fetched.items).mapError
      NavigationFailure.run
  let metadata := pageMetadata page fetched.response complete
  if ← outputTooLarge input counted metadata then
    throw (refused .tooLarge page)
  let taken ← takeItems input counted fetched.items
  return pageEnd taken metadata next

variable {input : PaginationInput Url Number Store Failure} {first : Url} {page : Nat}
  {state : PaginationState Number Store} {fetched : FetchedPage Number}

theorem paginationPage_eq (input : PaginationInput Url Number Store Failure) (first : Url)
    (page : Nat) (state : PaginationState Number Store) :
    paginationPage input first page state =
      readAt input first page state.url >>= pageOutcome input first page state := by
  unfold paginationPage readAt
  cases fetchPage input state.url (input.platform.origin first) page with
  | error failure => rfl
  | ok fetched =>
      obtain ⟨response, body⟩ := fetched
      show (itemsOf input.pagination body page >>= _) =
        (itemsOf input.pagination body page >>= _) >>= _
      cases itemsOf input.pagination body page with
      | error failure => rfl
      | ok items => rfl

theorem url_of_readAt {url : ScriptString} (h : readAt input first page url = .ok fetched) :
    fetched.url = url := by
  unfold readAt at h
  rcases exists_of_bind_eq_ok h with ⟨⟨response, body⟩, _, h⟩
  rcases exists_of_bind_eq_ok h with ⟨items, _, h⟩
  cases h
  rfl

theorem fitsLimits_of_readPage {response : ServerResponse Number} {body : Page Number}
    (h : readPage response page = (.ok body : Except (RunFailure Failure) _)) :
    FitsLimits body.value := by
  unfold readPage at h
  split at h
  · cases h
  · split at h
    · split at h
      · cases h
      · rename_i value hvalue
        cases h
        exact fitsLimits_of_parsePageBody hvalue
    · cases h

theorem fitsLimits_of_readAt {url : ScriptString}
    (h : readAt input first page url = .ok fetched) : FitsLimits (.array fetched.items) := by
  unfold readAt at h
  rcases exists_of_bind_eq_ok h with ⟨⟨response, body⟩, hfetched, h⟩
  rcases exists_of_bind_eq_ok h with ⟨items, hitems, h⟩
  cases h
  have hbody : FitsLimits body.value := by
    unfold fetchPage at hfetched
    split at hfetched
    · cases hfetched
    · split at hfetched
      · cases hfetched
      · rcases exists_of_map_eq_ok hfetched with ⟨other, hread, heq⟩
        cases heq
        exact fitsLimits_of_readPage hread
  unfold itemsOf at hitems
  split at hitems
  · rename_i found hfound
    cases hitems
    unfold resolveJsonPath at hfound
    split at hfound
    · cases hfound
    · split at hfound
      · cases hfound
      · rename_i segments _ _ value hvalue
        cases hfound
        exact fitsLimits_of_segments segments hbody hvalue
  · cases hitems

/-!
## Decided pages
-/

/-- The completeness that is decided for a page, whatever pages were seen before. -/
def Decides (input : PaginationInput Url Number Store Failure) (first : Url) (page : Nat)
    (fetched : FetchedPage Number) (complete : Bool) : Prop :=
  exists seen next,
    decideNext input first seen page fetched.body fetched.items = .ok (next, complete)

theorem decideNext_eq_ok {seen : List ScriptString} {body : Page Number}
    {items : List (BoundedJsonValue Number)} {next : Option NextPage} {complete : Bool}
    (h : decideNext input first seen page body items = .ok (next, complete)) :
    nextAfter input first seen page body items = .ok next ∧
      pageCompletesCollection input.pagination body page items next = .ok complete := by
  unfold decideNext at h
  rcases exists_of_bind_eq_ok h with ⟨found, hnext, h⟩
  rcases exists_of_bind_eq_ok h with ⟨decided, hcomplete, h⟩
  cases h
  exact ⟨hnext, hcomplete⟩

/-- A page completes the collection when it is empty or announces no other page. -/
theorem complete_iff {seen : List ScriptString} {body : Page Number}
    {items : List (BoundedJsonValue Number)} {next : Option NextPage} {complete : Bool}
    (h : decideNext input first seen page body items = .ok (next, complete)) :
    complete = true ↔ items = [] ∨ ¬ AnnouncesNext input.pagination body := by
  obtain ⟨hnext, hcomplete⟩ := decideNext_eq_ok h
  unfold pageCompletesCollection at hcomplete
  by_cases hempty : items = []
  · rw [if_pos (by simp [hempty])] at hcomplete
    cases hcomplete
    simp [hempty]
  · rw [if_neg (by simp [hempty])] at hcomplete
    by_cases hlast : page = input.pagination.maxPages
    · rw [if_pos (by simp [hlast])] at hcomplete
      rcases exists_of_map_eq_ok hcomplete with ⟨present, hpresent, rfl⟩
      rw [← hasNextPage_iff hpresent]
      simp [hempty]
    · rw [if_neg (by simp [hlast])] at hcomplete
      cases hcomplete
      unfold nextAfter at hnext
      rw [if_neg (by simp [hempty, hlast])] at hnext
      rcases exists_of_map_eq_ok hnext with ⟨found, hfound, rfl⟩
      rw [← hasNextPage_iff (hasNextPage_of_nextPage hfound)]
      simp [hempty]

/-- What was seen before decides only between a next page and a cycle. -/
theorem decideNext_seen {seen : List ScriptString} {body : Page Number}
    {items : List (BoundedJsonValue Number)} {next : Option NextPage} {complete : Bool}
    (h : decideNext input first seen page body items = .ok (next, complete))
    (others : List ScriptString) :
    exists other, decideNext input first others page body items = .ok (other, complete) := by
  obtain ⟨hnext, hcomplete⟩ := decideNext_eq_ok h
  unfold nextAfter at hnext
  by_cases hstops : (items.isEmpty || page == input.pagination.maxPages) = true
  · rw [if_pos hstops] at hnext
    cases hnext
    refine ⟨none, ?_⟩
    unfold decideNext nextAfter
    rw [if_pos hstops]
    exact bind_eq_ok_iff.mpr ⟨_, rfl, bind_eq_ok_iff.mpr ⟨complete, hcomplete, rfl⟩⟩
  · rw [if_neg hstops] at hnext
    rcases exists_of_map_eq_ok hnext with ⟨found, hfound, rfl⟩
    have hother : exists other,
        nextPage input.platform input.pagination first body page others = .ok other ∧
          (other == .exhausted) = (found == .exhausted) := by
      rcases nextPage_eq_ok hfound with
        ⟨htarget, rfl⟩ | ⟨target, identity, htarget, hchecked, hfound⟩
      · refine ⟨.exhausted, ?_, rfl⟩
        unfold nextPage
        exact bind_eq_ok_iff.mpr ⟨none, htarget, rfl⟩
      · have hnotExhausted : (found == .exhausted) = false := by
          rcases hfound with ⟨_, rfl⟩ | ⟨_, rfl⟩ <;> rfl
        by_cases hseen : identity ∈ others
        · refine ⟨.cycle, ?_, hnotExhausted.symm⟩
          unfold nextPage
          refine bind_eq_ok_iff.mpr ⟨_, htarget, bind_eq_ok_iff.mpr ⟨_, hchecked, ?_⟩⟩
          rw [if_pos (List.contains_iff_mem.mpr hseen)]
          rfl
        · refine ⟨.next target identity, ?_, hnotExhausted.symm⟩
          unfold nextPage
          refine bind_eq_ok_iff.mpr ⟨_, htarget, bind_eq_ok_iff.mpr ⟨_, hchecked, ?_⟩⟩
          rw [if_neg fun hcontains => hseen (List.contains_iff_mem.mp hcontains)]
          rfl
    obtain ⟨other, hother, hsame⟩ := hother
    refine ⟨some other, ?_⟩
    unfold decideNext nextAfter
    rw [if_neg hstops, hother]
    refine bind_eq_ok_iff.mpr ⟨_, rfl, bind_eq_ok_iff.mpr ⟨complete, ?_, rfl⟩⟩
    unfold pageCompletesCollection at hcomplete ⊢
    split
    · rename_i hempty
      rw [if_pos hempty] at hcomplete
      exact hcomplete
    · rename_i hempty
      rw [if_neg hempty] at hcomplete
      split
      · rename_i hlast
        rw [if_pos hlast] at hcomplete
        exact hcomplete
      · rename_i hlast
        rw [if_neg hlast] at hcomplete
        cases hcomplete
        have hsome : (some other == some NextPage.exhausted) = (some found == some .exhausted) :=
          hsame
        rw [hsome]

/-!
## Outcomes of a page
-/

theorem outcome_eq_ok {outcome : PageEnd Number Store}
    (h : pageOutcome input first page state fetched = .ok outcome) :
    exists taken next complete,
      decideNext input first state.seen page fetched.body fetched.items = .ok (next, complete) ∧
        taken.seen = state.seen ∧
        outcome = pageEnd taken (pageMetadata page fetched.response complete) next := by
  unfold pageOutcome at h
  rcases exists_of_bind_eq_ok h with ⟨counted, hcounted, h⟩
  rcases exists_of_bind_eq_ok h with ⟨⟨next, complete⟩, hdecided, h⟩
  rcases exists_of_bind_eq_ok h with ⟨tooLarge, _, h⟩
  have hseen : counted.seen = state.seen := by
    unfold countItems at hcounted
    rcases exists_of_bind_eq_ok hcounted with ⟨added, _, hcounted⟩
    cases hcounted
    rfl
  cases tooLarge with
  | true => cases h
  | false =>
      rcases exists_of_bind_eq_ok h with ⟨taken, htaken, h⟩
      cases h
      refine ⟨taken, next, complete, ?_, ?_, rfl⟩
      · cases hdecision : decideNext input first state.seen page fetched.body fetched.items with
        | error failure =>
            rw [hdecision] at hdecided
            cases hdecided
        | ok decision =>
            rw [hdecision] at hdecided
            cases hdecided
            rfl
      · rw [← hseen]
        unfold takeItems at htaken
        split at htaken
        · split at htaken
          · cases htaken
          · rcases exists_of_map_eq_ok htaken with ⟨writer, _, rfl⟩
            rfl
        · cases htaken
          rfl

/-- A page that can be decided is refused as too large exactly when the output with its items
exceeds the limits; otherwise its items are taken. -/
theorem outcome_inline (hinline : input.pagination.pagesOutput = false) (htallied : Tallied state)
    (hitems : FitsLimits (.array fetched.items)) {next : Option NextPage} {complete : Bool}
    (hdecided : decideNext input first state.seen page fetched.body fetched.items =
      .ok (next, complete)) :
    let whole := outputValue input.count (state.items ++ fetched.items)
      (pageMetadata page fetched.response complete)
    (ExceedsLimits whole ∧
        pageOutcome input first page state fetched = .error (refused .tooLarge page)) ∨
      (¬ ExceedsLimits whole ∧
        pageOutcome input first page state fetched =
          .ok (pageEnd
            { countedState state fetched.items with items := state.items ++ fetched.items }
            (pageMetadata page fetched.response complete) next)) := by
  intro whole
  obtain ⟨tooLarge, hchecked, hexceeds⟩ := outputTooLarge_inline hinline htallied hitems
    (pageMetadata page fetched.response complete)
  have houtcome : pageOutcome input first page state fetched =
      if tooLarge then .error (refused .tooLarge page)
      else .ok (pageEnd
        { countedState state fetched.items with items := state.items ++ fetched.items }
        (pageMetadata page fetched.response complete) next) := by
    unfold pageOutcome
    rw [countItems_inline hinline hitems, hdecided]
    show (outputTooLarge input (countedState state fetched.items)
      (pageMetadata page fetched.response complete) >>= _) = _
    rw [hchecked]
    cases tooLarge with
    | true => rfl
    | false =>
        show (takeItems input (countedState state fetched.items) fetched.items >>= _) = _
        unfold takeItems
        rw [hinline]
        rfl
  rw [houtcome]
  cases htooLarge : tooLarge with
  | true => exact Or.inl ⟨hexceeds.mp htooLarge, rfl⟩
  | false =>
      refine Or.inr ⟨fun h => ?_, rfl⟩
      rw [hexceeds.mpr h] at htooLarge
      cases htooLarge

theorem readAt_ne_tooLarge {url : ScriptString} {other : Nat} :
    readAt input first page url ≠ .error (refused .tooLarge other) := by
  intro h
  unfold readAt at h
  rcases bind_eq_error_iff.mp h with h | ⟨⟨response, body⟩, _, h⟩
  · unfold fetchPage at h
    split at h
    · unfold clientFailure at h
      split at h <;> cases h
    · split at h
      · cases h
      · unfold readPage at h
        split at h
        · cases h
        · split at h
          · split at h <;> cases h
          · cases h
  · rcases bind_eq_error_iff.mp h with h | ⟨items, _, h⟩
    · unfold itemsOf at h
      split at h <;> cases h
    · cases h

/-!
## Navigation never refuses a size
-/

def NavigationFailure.NotSize (failure : NavigationFailure) : Prop :=
  forall page, failure ≠ .pagination { code := .tooLarge, page }

theorem scalar_notSize {value : Option (BoundedJsonValue Number)} {numeric : Bool}
    {failure : NavigationFailure} (h : scalar value page numeric = .error failure) :
    failure.NotSize := by
  intro other hsize
  rw [hsize] at h
  unfold scalar at h
  split at h <;> try cases h
  split at h <;> cases h

theorem headerLink_notSize {link : Option (List Char)} {presenceOnly : Bool}
    {failure : NavigationFailure} (h : headerLink link page presenceOnly = .error failure) :
    failure.NotSize := by
  intro other hsize
  rw [hsize] at h
  unfold headerLink at h
  split at h <;> cases h

theorem namedLink_notSize {source : NextLinkSource} {body : Page Number}
    {failure : NavigationFailure} (h : namedLink source body page = .error failure) :
    failure.NotSize := by
  cases source with
  | body path => exact scalar_notSize h
  | linkHeader => exact headerLink_notSize h

theorem nextTarget_notSize {body : Page Number} {failure : NavigationFailure}
    (h : nextTarget input.platform input.pagination first body page = .error failure) :
    failure.NotSize := by
  unfold nextTarget at h
  split at h
  · rcases bind_eq_error_iff.mp h with h | ⟨link, _, h⟩
    · exact namedLink_notSize h
    · split at h
      · cases h
      · split at h
        · intro other hsize
          rw [hsize] at h
          cases h
        · cases h
  · rcases bind_eq_error_iff.mp h with h | ⟨cursor, _, h⟩
    · exact scalar_notSize h
    · split at h <;> cases h
  · cases h
  · cases h

omit [ScriptNumber Number] in
theorem checkTarget_notSize {target : ScriptString} {failure : NavigationFailure}
    (h : checkTarget input.platform first page target = .error failure) : failure.NotSize := by
  intro other hsize
  rw [hsize] at h
  unfold checkTarget at h
  split at h
  · cases h
  · split at h
    · cases h
    · split at h <;> cases h

theorem nextPage_notSize {body : Page Number} {seen : List ScriptString}
    {failure : NavigationFailure}
    (h : nextPage input.platform input.pagination first body page seen = .error failure) :
    failure.NotSize := by
  unfold nextPage at h
  rcases bind_eq_error_iff.mp h with h | ⟨found, _, h⟩
  · exact nextTarget_notSize h
  · split at h
    · cases h
    · rcases bind_eq_error_iff.mp h with h | ⟨_, _, h⟩
      · exact checkTarget_notSize h
      · split at h <;> cases h

omit [ScriptNumber Number] in
theorem hasNextPage_notSize {body : Page Number} {failure : NavigationFailure}
    (h : hasNextPage input.pagination body page = .error failure) : failure.NotSize := by
  unfold hasNextPage at h
  split at h <;> try cases h
  rcases bind_eq_error_iff.mp h with h | ⟨link, _, h⟩
  · exact headerLink_notSize h
  · cases h

theorem decideNext_notSize {seen : List ScriptString} {body : Page Number}
    {items : List (BoundedJsonValue Number)} {failure : NavigationFailure}
    (h : decideNext input first seen page body items = .error failure) : failure.NotSize := by
  unfold decideNext at h
  rcases bind_eq_error_iff.mp h with h | ⟨next, _, h⟩
  · unfold nextAfter at h
    split at h
    · cases h
    · cases hnext : nextPage input.platform input.pagination first body page seen with
      | error other =>
          rw [hnext] at h
          cases h
          exact nextPage_notSize hnext
      | ok next =>
          rw [hnext] at h
          cases h
  · rcases bind_eq_error_iff.mp h with h | ⟨complete, _, h⟩
    · unfold pageCompletesCollection at h
      split at h
      · cases h
      · split at h
        · cases hpresent : hasNextPage input.pagination body page with
          | error other =>
              rw [hpresent] at h
              cases h
              exact hasNextPage_notSize hpresent
          | ok present =>
              rw [hpresent] at h
              cases h
        · cases h
    · cases h

/-- A page is refused as too large only once its successor is decided. -/
theorem decided_of_tooLarge {other : Nat} (hinline : input.pagination.pagesOutput = false)
    (hitems : FitsLimits (.array fetched.items))
    (h : pageOutcome input first page state fetched = .error (refused .tooLarge other)) :
    other = page ∧ exists next complete,
      decideNext input first state.seen page fetched.body fetched.items =
        .ok (next, complete) := by
  unfold pageOutcome at h
  rw [countItems_inline hinline hitems] at h
  cases hdecision : decideNext input first state.seen page fetched.body fetched.items with
  | error failure =>
      rw [hdecision] at h
      have hrun : failure.run = (refused .tooLarge other : RunFailure Failure) :=
        Except.error.inj h
      cases failure with
      | badUrl => cases hrun
      | pagination failure =>
          cases hrun
          exact absurd rfl (decideNext_notSize hdecision other)
  | ok decision =>
      obtain ⟨next, complete⟩ := decision
      rw [hdecision] at h
      refine ⟨?_, next, complete, rfl⟩
      have h : (outputTooLarge input (countedState state fetched.items)
        (pageMetadata page fetched.response complete) >>= _) = _ := h
      rcases bind_eq_error_iff.mp h with h | ⟨tooLarge, _, h⟩
      · unfold outputTooLarge at h
        rw [inspect_outputValue input.count fitsLimits_nil] at h
        cases h
      · cases tooLarge with
        | true =>
            cases h
            rfl
        | false =>
            rcases bind_eq_error_iff.mp h with h | ⟨taken, _, h⟩
            · unfold takeItems at h
              rw [hinline] at h
              cases h
            · cases h

end

end Pagination
end Pertexo
