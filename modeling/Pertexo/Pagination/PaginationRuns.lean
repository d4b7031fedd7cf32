import Pertexo.Pagination.PageSteps

/-!
# Runs of a pagination

A run follows pages until one ends it. Its requests, its items and its refusals are those of
the pages that it reads.
-/

namespace Pertexo
namespace Pagination

open Library
open Values
open Canonical

section

variable {Url Number Store Failure : Type} [ScriptNumber Number]

def readPages (input : PaginationInput Url Number Store Failure) (first : Url) :
    Nat -> List ScriptString -> List (FetchedPage Number)
  | _, [] => []
  | page, url :: rest =>
      match readAt input first page url with
      | .error _ => []
      | .ok fetched => fetched :: readPages input first (page + 1) rest

/-- The pages that are followed from a state, and the state before the page that ends the run. -/
inductive Follows (input : PaginationInput Url Number Store Failure) (first : Url) :
    Nat -> PaginationState Number Store -> List (FetchedPage Number) ->
      PaginationState Number Store -> Prop where
  | last (page : Nat) (state : PaginationState Number Store) :
      Follows input first page state [] state
  | next {page : Nat} {state following last : PaginationState Number Store}
      {fetched : FetchedPage Number} {rest : List (FetchedPage Number)}
      (hread : readAt input first page state.url = .ok fetched)
      (hfollow : pageOutcome input first page state fetched = .ok (.follow following))
      (hrest : Follows input first (page + 1) following rest last) :
      Follows input first page state (fetched :: rest) last

inductive EndsAt (input : PaginationInput Url Number Store Failure) (first : Url) (page : Nat)
    (state : PaginationState Number Store) :
    Except (RunFailure Failure) (PaginationState Number Store × PageMetadata Number) -> Prop where
  | unread {failure : RunFailure Failure}
      (hread : readAt input first page state.url = .error failure) :
      EndsAt input first page state (.error failure)
  | failed {fetched : FetchedPage Number} {failure : RunFailure Failure}
      (hread : readAt input first page state.url = .ok fetched)
      (houtcome : pageOutcome input first page state fetched = .error failure) :
      EndsAt input first page state (.error failure)
  | finished {fetched : FetchedPage Number} {finished : PaginationState Number Store}
      {metadata : PageMetadata Number}
      (hread : readAt input first page state.url = .ok fetched)
      (houtcome : pageOutcome input first page state fetched = .ok (.finished finished metadata)) :
      EndsAt input first page state (.ok (finished, metadata))

variable {input : PaginationInput Url Number Store Failure} {first : Url}

theorem ne_maxPages_of_follow {page : Nat} {state following : PaginationState Number Store}
    {fetched : FetchedPage Number}
    (h : pageOutcome input first page state fetched = .ok (.follow following)) :
    page ≠ input.pagination.maxPages := by
  intro hlast
  obtain ⟨taken, next, complete, hdecided, _, houtcome⟩ := outcome_eq_ok h
  obtain ⟨hnext, _⟩ := decideNext_eq_ok hdecided
  unfold nextAfter at hnext
  rw [if_pos (by simp [hlast])] at hnext
  cases hnext
  cases houtcome

theorem fetchPages_succ (input : PaginationInput Url Number Store Failure) (first : Url)
    (remaining page : Nat) (state : PaginationState Number Store) :
    (exists result, fetchPages input first (remaining + 1) page state = ([state.url], result) ∧
        EndsAt input first page state result) ∨
      exists fetched following, readAt input first page state.url = .ok fetched ∧
        pageOutcome input first page state fetched = .ok (.follow following) ∧
        fetchPages input first (remaining + 1) page state =
          (state.url :: (fetchPages input first remaining (page + 1) following).fst,
            (fetchPages input first remaining (page + 1) following).snd) := by
  rw [fetchPages, paginationPage_eq]
  cases hread : readAt input first page state.url with
  | error failure => exact Or.inl ⟨_, rfl, .unread hread⟩
  | ok fetched =>
      cases houtcome : pageOutcome input first page state fetched with
      | error failure =>
          refine Or.inl ⟨.error failure, ?_, .failed hread houtcome⟩
          simp only [bind, Except.bind, houtcome]
      | ok outcome =>
          cases outcome with
          | finished finished metadata =>
              refine Or.inl ⟨.ok (finished, metadata), ?_, .finished hread houtcome⟩
              simp only [bind, Except.bind, houtcome]
          | follow following =>
              refine Or.inr ⟨fetched, following, rfl, houtcome, ?_⟩
              simp only [bind, Except.bind, houtcome]

/-- A run follows pages within its bound and ends at the page behind them. -/
theorem fetchPages_follows (remaining : Nat) :
    forall {page : Nat} {state : PaginationState Number Store},
      page + remaining = input.pagination.maxPages ->
      exists followed last, Follows input first page state followed last ∧
        page + followed.length ≤ input.pagination.maxPages ∧
        (fetchPages input first (remaining + 1) page state).fst =
          followed.map FetchedPage.url ++ [last.url] ∧
        EndsAt input first (page + followed.length) last
          (fetchPages input first (remaining + 1) page state).snd := by
  induction remaining with
  | zero =>
      intro page state hpage
      rcases fetchPages_succ input first 0 page state with
        ⟨result, hrun, hend⟩ | ⟨fetched, following, _, hfollow, _⟩
      · refine ⟨[], state, .last page state, by simp; omega, ?_⟩
        rw [hrun]
        exact ⟨rfl, hend⟩
      · exact absurd hpage (ne_maxPages_of_follow hfollow)
  | succ remaining ih =>
      intro page state hpage
      rcases fetchPages_succ input first (remaining + 1) page state with
        ⟨result, hrun, hend⟩ | ⟨fetched, following, hread, hfollow, hrun⟩
      · refine ⟨[], state, .last page state, by simp; omega, ?_⟩
        rw [hrun]
        exact ⟨rfl, hend⟩
      · have hpageNext : page + 1 + remaining = input.pagination.maxPages := by omega
        obtain ⟨rest, last, hrest, hbound, hrequests, hend⟩ := @ih (page + 1) following hpageNext
        refine ⟨fetched :: rest, last, .next hread hfollow hrest, ?_, ?_, ?_⟩
        · rw [List.length_cons]
          omega
        · rw [hrun, hrequests, List.map_cons, List.cons_append, url_of_readAt hread]
        · rw [hrun, List.length_cons, ← Nat.add_assoc, Nat.add_right_comm]
          exact hend

/-!
## Requests
-/

/-- The page behind a page that is followed: its address has the first origin and what tells it
from others is new. -/
theorem target_of_follow {page : Nat} {state following : PaginationState Number Store}
    {fetched : FetchedPage Number}
    (h : pageOutcome input first page state fetched = .ok (.follow following)) :
    exists identity,
      nextTarget input.platform input.pagination first fetched.body page =
          .ok (some (following.url, identity)) ∧
        (input.platform.parse following.url).map input.platform.origin =
          some (input.platform.origin first) ∧
        identity ∉ state.seen ∧ following.seen = identity :: state.seen := by
  obtain ⟨taken, next, complete, hdecided, hseen, houtcome⟩ := outcome_eq_ok h
  obtain ⟨hnext, _⟩ := decideNext_eq_ok hdecided
  unfold nextAfter at hnext
  split at hnext
  · cases hnext
    cases houtcome
  · rcases exists_of_map_eq_ok hnext with ⟨found, hfound, rfl⟩
    rcases nextPage_eq_ok hfound with
      ⟨_, rfl⟩ | ⟨target, identity, htarget, hchecked, ⟨_, rfl⟩ | ⟨hnew, rfl⟩⟩
    · cases houtcome
    · cases houtcome
    · cases houtcome
      refine ⟨identity, htarget, ?_, hnew, by rw [← hseen]⟩
      unfold checkTarget at hchecked
      split at hchecked
      · cases hchecked
      · rename_i url hparsed
        show (input.platform.parse target).map input.platform.origin = _
        rw [hparsed]
        split at hchecked
        · cases hchecked
        · rename_i horigin
          rw [Option.map_some, not_not.mp horigin]

structure Requests (input : PaginationInput Url Number Store Failure) (first : Url)
    (seen : List ScriptString) (url : ScriptString) (followed : List (FetchedPage Number))
    (requests : List ScriptString) : Prop where
  targets : exists targets : List (ScriptString × ScriptString),
    requests = url :: targets.map Prod.fst ∧ (targets.map Prod.snd).Nodup ∧
      (forall identity, identity ∈ targets.map Prod.snd -> identity ∉ seen) ∧
      List.Forall₂ (fun fetched target => exists page,
        nextTarget input.platform input.pagination first fetched.body page = .ok (some target))
        followed targets
  origins : forall request, request ∈ requests.tail ->
    (input.platform.parse request).map input.platform.origin = some (input.platform.origin first)

theorem Follows.requests {page : Nat} {state last : PaginationState Number Store}
    {followed : List (FetchedPage Number)} (h : Follows input first page state followed last) :
    Requests input first state.seen state.url followed
      (followed.map FetchedPage.url ++ [last.url]) := by
  induction h with
  | last page state =>
      constructor
      · exact ⟨[], rfl, List.nodup_nil, fun _ hmem => absurd hmem List.not_mem_nil, .nil⟩
      · intro request hrequest
        exact absurd hrequest List.not_mem_nil
  | @next page state following last fetched rest hread hfollow hrest ih =>
      obtain ⟨identity, htarget, horigin, hnew, hseen⟩ := target_of_follow hfollow
      obtain ⟨targets, hrequests, hdistinct, hunseen, hfollowed⟩ := ih.targets
      rw [List.map_cons, List.cons_append, url_of_readAt hread]
      constructor
      · refine ⟨(following.url, identity) :: targets, ?_, ?_, ?_, .cons ⟨page, htarget⟩ hfollowed⟩
        · rw [hrequests, List.map_cons]
        · rw [List.map_cons, List.nodup_cons]
          refine ⟨fun hmem => ?_, hdistinct⟩
          have := hunseen identity hmem
          rw [hseen] at this
          exact this List.mem_cons_self
        · intro other hother
          rcases List.mem_cons.mp hother with hsame | hrestMem
          · rw [hsame]
            exact hnew
          · have := hunseen other hrestMem
            rw [hseen] at this
            exact fun hmem => this (List.mem_cons_of_mem _ hmem)
      · intro request hrequest
        rw [List.tail_cons, hrequests] at hrequest
        rcases List.mem_cons.mp hrequest with hsame | hrestMem
        · rw [hsame]
          exact horigin
        · apply ih.origins
          rw [hrequests]
          exact hrestMem

/-!
## Pages that are read
-/

theorem Follows.readPages_eq {page : Nat} {state last : PaginationState Number Store}
    {followed : List (FetchedPage Number)} (h : Follows input first page state followed last) :
    readPages input first page (followed.map FetchedPage.url ++ [last.url]) =
      followed ++ (readAt input first (page + followed.length) last.url).toOption.toList := by
  induction h with
  | last page state =>
      rw [List.map_nil, List.nil_append, List.nil_append, List.length_nil, Nat.add_zero, readPages]
      cases readAt input first page state.url with
      | error failure => rfl
      | ok fetched => rfl
  | @next page state following last fetched rest hread hfollow hrest ih =>
      rw [List.map_cons, List.cons_append, url_of_readAt hread, readPages, hread]
      dsimp only
      rw [ih, List.length_cons, List.cons_append, Nat.add_right_comm, Nat.add_assoc]

theorem Follows.head_url {page : Nat} {state last : PaginationState Number Store}
    {followed : List (FetchedPage Number)} (h : Follows input first page state followed last) :
    (followed.map FetchedPage.url ++ [last.url]).head? = some state.url := by
  cases h with
  | last => rfl
  | next hread _ _ =>
      rw [← url_of_readAt hread]
      rfl

theorem Follows.at_page {page : Nat} {state last : PaginationState Number Store}
    {followed : List (FetchedPage Number)} (h : Follows input first page state followed last) :
    forall {k : Nat} {fetched : FetchedPage Number}, followed[k]? = some fetched ->
      exists middle following, Follows input first page state (followed.take k) middle ∧
        readAt input first (page + k) middle.url = .ok fetched ∧
        pageOutcome input first (page + k) middle fetched = .ok (.follow following) ∧
        (followed.map FetchedPage.url ++ [last.url])[k + 1]? = some following.url := by
  induction h with
  | last page state =>
      intro k fetched hfetched
      cases hfetched
  | @next page state following last found rest hread hfollow hrest ih =>
      intro k fetched hfetched
      cases k with
      | zero =>
          cases hfetched
          refine ⟨state, following, .last page state, hread, hfollow, ?_⟩
          rw [List.map_cons, List.cons_append, List.getElem?_cons_succ, ← List.head?_eq_getElem?]
          exact hrest.head_url
      | succ k =>
          rw [List.getElem?_cons_succ] at hfetched
          obtain ⟨middle, later, hbefore, hlater, houtcome, hrequest⟩ := ih hfetched
          have hpage : page + 1 + k = page + (k + 1) := by omega
          rw [hpage] at hlater houtcome
          exact ⟨middle, later, .next hread hfollow hbefore, hlater, houtcome, hrequest⟩

theorem Follows.seen {page : Nat} {state last : PaginationState Number Store}
    {followed : List (FetchedPage Number)} (h : Follows input first page state followed last)
    {identity : ScriptString} (hseen : identity ∈ last.seen) :
    identity ∈ state.seen ∨ exists j earlier address, followed[j]? = some earlier ∧
      nextTarget input.platform input.pagination first earlier.body (page + j) =
        .ok (some (address, identity)) := by
  induction h with
  | last page state => exact Or.inl hseen
  | @next page state following last fetched rest hread hfollow hrest ih =>
      obtain ⟨other, htarget, _, _, hfollowing⟩ := target_of_follow hfollow
      rcases ih hseen with hmem | ⟨j, earlier, address, hearlier, hnamed⟩
      · rw [hfollowing] at hmem
        rcases List.mem_cons.mp hmem with hsame | hmem
        · rw [hsame]
          exact Or.inr ⟨0, fetched, following.url, rfl, htarget⟩
        · exact Or.inl hmem
      · rw [Nat.add_assoc, Nat.add_comm 1 j] at hnamed
        exact Or.inr ⟨j + 1, earlier, address, hearlier, hnamed⟩

/-- The items of an inline run are those of its pages, and their sizes are counted. -/
theorem Follows.tallied (hinline : input.pagination.pagesOutput = false) {page : Nat}
    {state last : PaginationState Number Store} {followed : List (FetchedPage Number)}
    (h : Follows input first page state followed last) (htallied : Tallied state) :
    Tallied last ∧ last.items = state.items ++ followed.flatMap FetchedPage.items := by
  induction h with
  | last page state => exact ⟨htallied, by simp⟩
  | @next page state following last fetched rest hread hfollow hrest ih =>
      have hitems := fitsLimits_of_readAt hread
      obtain ⟨_, next, complete, hdecided, _, _⟩ := outcome_eq_ok hfollow
      rcases outcome_inline hinline htallied hitems hdecided with ⟨_, houtcome⟩ | ⟨_, houtcome⟩
      · rw [houtcome] at hfollow
        cases hfollow
      · rw [houtcome] at hfollow
        have hfollowing : Tallied following ∧
            following.items = state.items ++ fetched.items := by
          have hend := Except.ok.inj hfollow
          unfold pageEnd at hend
          split at hend
          · cases hend
            have htaken := htallied.taken hitems
            exact ⟨⟨htaken.bytes, htaken.members, htaken.depth, htaken.fits⟩, rfl⟩
          · cases hend
        obtain ⟨hlast, hall⟩ := ih hfollowing.left
        refine ⟨hlast, ?_⟩
        rw [hall, hfollowing.right, List.flatMap_cons, List.append_assoc]

/-!
## The accounting of a run
-/

def outputSoFar (input : PaginationInput Url Number Store Failure)
    (pages : List (FetchedPage Number)) (page : FetchedPage Number) (complete : Bool) :
    BoundedJsonValue Number :=
  outputValue input.count (pages.flatMap FetchedPage.items)
    (pageMetadata pages.length page.response complete)

/-- All requests differ: in their cursors where pages are named by cursors, in their addresses
elsewhere. -/
def DistinctRequests (input : PaginationInput Url Number Store Failure) (first : Url)
    (pages : List (FetchedPage Number)) (requests : List ScriptString) : Prop :=
  match input.pagination.mode with
  | .cursor cursorPath parameter => exists cursors : List ScriptString,
      requests = input.platform.text first :: cursors.map (fun cursor =>
          input.platform.text (setPaginationParameter input.platform first parameter cursor)) ∧
        ((searchParameter input.platform first parameter).toList ++ cursors).Nodup ∧
        List.Forall₂ (fun fetched cursor => exists page,
          scalar (valueAt fetched.body.value cursorPath) page true = .ok (some cursor))
          (pages.take cursors.length) cursors
  | _ => requests.Nodup

def PaginationOutput.metadata : PaginationOutput Number Store -> PageMetadata Number
  | .inline _ metadata => metadata
  | .pages _ _ metadata => metadata

/-- A run that can be started: its time is enough and paged output can be stored. -/
def CanStart (input : PaginationInput Url Number Store Failure) : Prop :=
  overBudget input = false ∧ (input.pagination.pagesOutput && input.artifacts.isNone) = false

/-- A page with items names a page that may be fetched and that no page before it named. -/
structure NamesNewPage (input : PaginationInput Url Number Store Failure) (first : Url)
    (pages : List (FetchedPage Number)) (k : Nat) (page : FetchedPage Number)
    (target identity : ScriptString) : Prop where
  items : page.items ≠ []
  below : k + 1 ≠ input.pagination.maxPages
  named : nextTarget input.platform input.pagination first page.body (k + 1) =
    .ok (some (target, identity))
  checked : checkTarget input.platform first (k + 1) target = .ok ()
  unseen : identity ∉ firstSeen input first
  fresh : forall j earlier address, j < k -> pages[j]? = some earlier ->
    nextTarget input.platform input.pagination first earlier.body (j + 1) ≠
      .ok (some (address, identity))

structure PaginationAccounted (input : PaginationInput Url Number Store Failure) (first : Url)
    (run : PaginationRun Number Store Failure) : Prop where
  started : CanStart input -> run.requests.head? = some (input.platform.text first)
  followed : forall k page target identity,
    (readPages input first 1 run.requests)[k]? = some page ->
    NamesNewPage input first (readPages input first 1 run.requests) k page target identity ->
    run.requests[k + 1]? = some target ∨
      run.requests.length = k + 1 ∧ exists failure, run.result = .error failure ∧
        (input.pagination.pagesOutput = false -> failure = refused .tooLarge (k + 1))
  bounded : run.requests.length ≤ input.pagination.maxPages
  same_origin : forall request, request ∈ run.requests ->
    (input.platform.parse request).map input.platform.origin = some (input.platform.origin first)
  distinct : run.requests = [] ∨
    DistinctRequests input first (readPages input first 1 run.requests) run.requests
  read_all : forall output, run.result = .ok output ->
    (readPages input first 1 run.requests).length = run.requests.length
  items : forall items metadata, run.result = .ok (.inline items metadata) ->
    items = (readPages input first 1 run.requests).flatMap FetchedPage.items
  too_large : input.pagination.pagesOutput = false -> forall k page complete,
    (readPages input first 1 run.requests)[k]? = some page ->
    Decides input first (k + 1) page complete ->
    (run.result = .error (refused .tooLarge (k + 1)) ↔
      ExceedsLimits (outputSoFar input ((readPages input first 1 run.requests).take (k + 1)) page
        complete))
  too_large_page : input.pagination.pagesOutput = false -> forall other,
    run.result = .error (refused .tooLarge other) ->
    exists k page complete, other = k + 1 ∧
      (readPages input first 1 run.requests)[k]? = some page ∧
      Decides input first (k + 1) page complete
  complete : forall output, run.result = .ok output ->
    exists last, (readPages input first 1 run.requests).getLast? = some last ∧
      (output.metadata.complete = true ↔
        last.items = [] ∨ ¬ AnnouncesNext input.pagination last.body)

/-- A run that has been started, with the pages it follows and the state in which it ends. -/
structure StartedRun (input : PaginationInput Url Number Store Failure) (first : Url)
    (run : PaginationRun Number Store Failure) (followed : List (FetchedPage Number))
    (last : PaginationState Number Store)
    (result : Except (RunFailure Failure) (PaginationState Number Store × PageMetadata Number)) :
    Prop where
  follows : Follows input first 1 (startState input first) followed last
  bounded : 1 + followed.length ≤ input.pagination.maxPages
  requests : run.requests = followed.map FetchedPage.url ++ [last.url]
  ends : EndsAt input first (1 + followed.length) last result
  result : run.result = result.bind (finishOutput input)

variable {run : PaginationRun Number Store Failure} {followed : List (FetchedPage Number)}
  {last : PaginationState Number Store}
  {result : Except (RunFailure Failure) (PaginationState Number Store × PageMetadata Number)}

theorem StartedRun.readPages_eq (h : StartedRun input first run followed last result) :
    readPages input first 1 run.requests =
      followed ++ (readAt input first (1 + followed.length) last.url).toOption.toList := by
  rw [h.requests, h.follows.readPages_eq]

theorem nextTarget_cursor {cursorPath : String} {parameter : ScriptString}
    (hmode : input.pagination.mode = .cursor cursorPath parameter) {body : Page Number} {page : Nat}
    {target : ScriptString × ScriptString}
    (h : nextTarget input.platform input.pagination first body page = .ok (some target)) :
    scalar (valueAt body.value cursorPath) page true = .ok (some target.snd) ∧
      target.fst = input.platform.text
        (setPaginationParameter input.platform first parameter target.snd) := by
  unfold nextTarget at h
  rw [hmode] at h
  dsimp only at h
  rcases exists_of_bind_eq_ok h with ⟨cursor, hcursor, h⟩
  cases cursor with
  | none => cases h
  | some cursor =>
      cases h
      exact ⟨hcursor, rfl⟩

theorem nextTarget_address
    (hmode : forall cursorPath parameter, input.pagination.mode ≠ .cursor cursorPath parameter)
    {body : Page Number} {page : Nat} {target : ScriptString × ScriptString}
    (h : nextTarget input.platform input.pagination first body page = .ok (some target)) :
    target.fst = target.snd := by
  unfold nextTarget at h
  split at h
  · rcases exists_of_bind_eq_ok h with ⟨link, _, h⟩
    cases link with
    | none => cases h
    | some link =>
        dsimp only at h
        split at h
        · cases h
        · cases h
          rfl
  · rename_i cursorPath parameter hcursor
    exact absurd hcursor (hmode cursorPath parameter)
  · cases h
    rfl
  · cases h
    rfl

theorem distinct_of_requests {pages : List (FetchedPage Number)} {requests : List ScriptString}
    (h : Requests input first (firstSeen input first) (input.platform.text first) followed requests)
    (hpages : followed <+: pages) : DistinctRequests input first pages requests := by
  obtain ⟨targets, hrequests, hdistinct, hunseen, hfollowed⟩ := h.targets
  have hnodup : forall seen : List ScriptString, seen.Nodup -> firstSeen input first = seen ->
      (seen ++ targets.map Prod.snd).Nodup := by
    intro seen hseen heq
    rw [List.nodup_append]
    refine ⟨hseen, hdistinct, ?_⟩
    intro identity hidentity other hother hsame
    rw [hsame, ← heq] at hidentity
    exact hunseen other hother hidentity
  have haddress :
      (forall cursorPath parameter, input.pagination.mode ≠ .cursor cursorPath parameter) ->
        firstSeen input first = [input.platform.text first] -> requests.Nodup := by
    intro hmode hseen
    have hmap : targets.map Prod.fst = targets.map Prod.snd := by
      apply List.map_congr_left
      intro target htarget
      obtain ⟨fetched, _, page, hnext⟩ := exists_of_mem_right hfollowed htarget
      exact nextTarget_address hmode hnext
    rw [hrequests, hmap]
    exact hnodup [input.platform.text first] (List.nodup_singleton _) hseen
  unfold DistinctRequests
  cases hmode : input.pagination.mode with
  | cursor cursorPath parameter =>
      refine ⟨targets.map Prod.snd, ?_, ?_, ?_⟩
      · rw [hrequests, List.map_map]
        congr 1
        apply List.map_congr_left
        intro target htarget
        obtain ⟨fetched, _, page, hnext⟩ := exists_of_mem_right hfollowed htarget
        exact (nextTarget_cursor hmode hnext).right
      · apply hnodup
        · cases searchParameter input.platform first parameter with
          | none => exact List.nodup_nil
          | some cursor => exact List.nodup_singleton cursor
        · unfold firstSeen
          rw [hmode]
      · have htaken : pages.take (targets.map Prod.snd).length = followed := by
          rw [List.length_map, ← hfollowed.length_eq]
          exact (List.prefix_iff_eq_take.mp hpages).symm
        rw [htaken, List.forall₂_map_right_iff]
        apply hfollowed.imp
        rintro fetched target ⟨page, hnext⟩
        exact ⟨page, (nextTarget_cursor hmode hnext).left⟩
  | nextLink source =>
      apply haddress
      · intro cursorPath parameter hcursor
        rw [hmode] at hcursor
        cases hcursor
      · unfold firstSeen
        rw [hmode]
  | page parameter start =>
      apply haddress
      · intro cursorPath other hcursor
        rw [hmode] at hcursor
        cases hcursor
      · unfold firstSeen
        rw [hmode]
  | offset parameter start step =>
      apply haddress
      · intro cursorPath other hcursor
        rw [hmode] at hcursor
        cases hcursor
      · unfold firstSeen
        rw [hmode]

omit [ScriptNumber Number] in
theorem finishOutput_eq_ok {finished : PaginationState Number Store × PageMetadata Number}
    {output : PaginationOutput Number Store} (h : finishOutput input finished = .ok output) :
    output.metadata = finished.snd ∧ forall items metadata, output = .inline items metadata ->
      input.pagination.pagesOutput = false ∧ items = finished.fst.items := by
  unfold finishOutput at h
  split at h
  · split at h
    · cases h
    · rcases exists_of_map_eq_ok h with ⟨writer, _, rfl⟩
      refine ⟨rfl, ?_⟩
      intro items metadata heq
      cases heq
  · rename_i hinline
    cases h
    refine ⟨rfl, ?_⟩
    intro items metadata heq
    cases heq
    exact ⟨Bool.not_eq_true _ ▸ hinline, rfl⟩

theorem StartedRun.lastPage (h : StartedRun input first run followed last result)
    {output : PaginationOutput Number Store} (houtput : run.result = .ok output) :
    exists fetched finished next,
      readPages input first 1 run.requests = followed ++ [fetched] ∧
        readAt input first (1 + followed.length) last.url = .ok fetched ∧
        pageOutcome input first (1 + followed.length) last fetched =
          .ok (.finished finished output.metadata) ∧
        decideNext input first last.seen (1 + followed.length) fetched.body fetched.items =
          .ok (next, output.metadata.complete) ∧
        forall items metadata, output = .inline items metadata ->
          input.pagination.pagesOutput = false ∧ items = finished.items := by
  have hends := h.ends
  rw [h.result] at houtput
  rcases exists_of_bind_eq_ok houtput with ⟨⟨finished, metadata⟩, hresult, hfinish⟩
  obtain ⟨hmetadata, hinline⟩ := finishOutput_eq_ok hfinish
  dsimp only at hmetadata
  rw [hresult] at hends
  cases hends with
  | @finished fetched finished metadata hread houtcome =>
      obtain ⟨taken, next, complete, hdecided, _, heq⟩ := outcome_eq_ok houtcome
      have hcomplete : metadata.complete = complete := by
        unfold pageEnd at heq
        split at heq
        · cases heq
        · cases heq
          rfl
      refine ⟨fetched, finished, next, ?_, hread, ?_, ?_, hinline⟩
      · rw [h.readPages_eq, hread]
        rfl
      · rw [hmetadata]
        exact houtcome
      · rw [hmetadata, hcomplete]
        exact hdecided

theorem StartedRun.items_eq (h : StartedRun input first run followed last result)
    {items : List (BoundedJsonValue Number)} {metadata : PageMetadata Number}
    (houtput : run.result = .ok (.inline items metadata)) :
    items = (readPages input first 1 run.requests).flatMap FetchedPage.items := by
  obtain ⟨fetched, finished, next, hpages, hread, houtcome, hdecided, hinline⟩ :=
    h.lastPage houtput
  obtain ⟨hinline, hitems⟩ := hinline items metadata rfl
  obtain ⟨htallied, hall⟩ := h.follows.tallied hinline (tallied_startState input first)
  rcases outcome_inline hinline htallied (fitsLimits_of_readAt hread) hdecided with
    ⟨_, hother⟩ | ⟨_, hother⟩
  · rw [hother] at houtcome
    cases houtcome
  · rw [hother] at houtcome
    have hend := Except.ok.inj houtcome
    have htaken : finished.items = last.items ++ fetched.items := by
      unfold pageEnd at hend
      split at hend
      · cases hend
      · rw [← (PageEnd.finished.inj hend).left]
    rw [hitems, htaken, hall, hpages, List.flatMap_append]
    show [] ++ _ ++ _ = _ ++ (fetched.items ++ [])
    rw [List.nil_append, List.append_nil]

/-- How an inline run ends is known once the last page it reads is decided. -/
theorem StartedRun.tooLarge_iff (h : StartedRun input first run followed last result)
    (hinline : input.pagination.pagesOutput = false) (other : Nat) :
    run.result = .error (refused .tooLarge other) ↔ result = .error (refused .tooLarge other) := by
  rw [h.result]
  cases result with
  | error failure =>
      show Except.error failure = _ ↔ _
      constructor
      · intro heq
        cases heq
        rfl
      · intro heq
        cases heq
        rfl
  | ok finished =>
      show finishOutput input finished = _ ↔ _
      unfold finishOutput
      rw [hinline]
      constructor
      · intro heq
        cases heq
      · intro heq
        cases heq

theorem StartedRun.decided_last (h : StartedRun input first run followed last result)
    (hinline : input.pagination.pagesOutput = false) {other : Nat}
    (hrefused : run.result = .error (refused .tooLarge other)) :
    other = 1 + followed.length ∧ exists fetched next complete,
      readAt input first (1 + followed.length) last.url = .ok fetched ∧
        decideNext input first last.seen (1 + followed.length) fetched.body fetched.items =
          .ok (next, complete) := by
  have hends := h.ends
  rw [(h.tooLarge_iff hinline other).mp hrefused] at hends
  cases hends with
  | unread hread => exact absurd hread readAt_ne_tooLarge
  | failed hread houtcome =>
      obtain ⟨hpage, next, complete, hdecided⟩ :=
        decided_of_tooLarge hinline (fitsLimits_of_readAt hread) houtcome
      exact ⟨hpage, _, next, complete, hread, hdecided⟩

theorem StartedRun.tooLarge_page (h : StartedRun input first run followed last result)
    (hinline : input.pagination.pagesOutput = false) {other : Nat}
    (hrefused : run.result = .error (refused .tooLarge other)) :
    exists k page complete, other = k + 1 ∧
      (readPages input first 1 run.requests)[k]? = some page ∧
      Decides input first (k + 1) page complete := by
  obtain ⟨hpage, fetched, next, complete, hread, hdecided⟩ := h.decided_last hinline hrefused
  refine ⟨followed.length, fetched, complete, by omega, ?_, last.seen, next, ?_⟩
  · rw [h.readPages_eq, hread]
    exact List.getElem?_concat_length
  · rw [Nat.add_comm followed.length 1]
    exact hdecided

omit [ScriptNumber Number] in
theorem outputSoFar_concat (pages : List (FetchedPage Number)) (page : FetchedPage Number)
    (complete : Bool) :
    outputSoFar input (pages ++ [page]) page complete =
      outputValue input.count (pages.flatMap FetchedPage.items ++ page.items)
        (pageMetadata (1 + pages.length) page.response complete) := by
  rw [outputSoFar, List.flatMap_append, List.length_append, List.length_singleton,
    Nat.add_comm pages.length 1]
  show outputValue input.count (_ ++ (page.items ++ [])) _ = _
  rw [List.append_nil]

theorem StartedRun.fits_at (h : StartedRun input first run followed last result)
    (hinline : input.pagination.pagesOutput = false) {k : Nat} {page : FetchedPage Number}
    {complete : Bool} (hpage : followed[k]? = some page)
    (hdecides : Decides input first (k + 1) page complete) :
    ¬ ExceedsLimits (outputSoFar input (followed.take (k + 1)) page complete) := by
  obtain ⟨seen, next, hdecided⟩ := hdecides
  have hlt : k < followed.length := (List.getElem?_eq_some_iff.mp hpage).choose
  obtain ⟨middle, following, hbefore, hread, houtcome, _⟩ := h.follows.at_page hpage
  obtain ⟨htallied, hall⟩ := hbefore.tallied hinline (tallied_startState input first)
  obtain ⟨other, hother⟩ := decideNext_seen hdecided middle.seen
  have hlength : (followed.take k).length = k := by
    rw [List.length_take]
    omega
  rw [List.take_add_one, hpage, Option.toList_some, outputSoFar_concat, hlength]
  rw [Nat.add_comm k 1] at hother
  intro hexceeds
  rcases outcome_inline hinline htallied (fitsLimits_of_readAt hread) hother with
    ⟨_, hrefused⟩ | ⟨hfits, _⟩
  · rw [hrefused] at houtcome
    cases houtcome
  · rw [hall] at hfits
    exact hfits hexceeds

theorem EndsAt.of_read {page : Nat} {state : PaginationState Number Store}
    {fetched : FetchedPage Number} (h : EndsAt input first page state result)
    (hread : readAt input first page state.url = .ok fetched) :
    (exists failure, pageOutcome input first page state fetched = .error failure ∧
        result = .error failure) ∨
      exists finished metadata,
        pageOutcome input first page state fetched = .ok (.finished finished metadata) ∧
          result = .ok (finished, metadata) := by
  cases h with
  | unread hunread =>
      rw [hread] at hunread
      cases hunread
  | failed hother houtcome =>
      rw [hread] at hother
      cases hother
      exact Or.inl ⟨_, houtcome, rfl⟩
  | finished hother houtcome =>
      rw [hread] at hother
      cases hother
      exact Or.inr ⟨_, _, houtcome, rfl⟩

theorem StartedRun.tooLarge_last (h : StartedRun input first run followed last result)
    (hinline : input.pagination.pagesOutput = false) {page : FetchedPage Number} {complete : Bool}
    (hread : readAt input first (1 + followed.length) last.url = .ok page)
    (hdecides : Decides input first (followed.length + 1) page complete) :
    run.result = .error (refused .tooLarge (followed.length + 1)) ↔
      ExceedsLimits (outputSoFar input (followed ++ [page]) page complete) := by
  obtain ⟨seen, next, hdecided⟩ := hdecides
  obtain ⟨htallied, hall⟩ := h.follows.tallied hinline (tallied_startState input first)
  obtain ⟨other, hother⟩ := decideNext_seen hdecided last.seen
  have hitems : last.items = followed.flatMap FetchedPage.items := hall
  rw [Nat.add_comm followed.length 1] at hother ⊢
  rw [outputSoFar_concat, ← hitems, h.tooLarge_iff hinline]
  rcases outcome_inline hinline htallied (fitsLimits_of_readAt hread) hother with
    ⟨hexceeds, hrefused⟩ | ⟨hfits, htaken⟩
  · apply iff_of_true _ hexceeds
    rcases h.ends.of_read hread with ⟨failure, hfailed, hresult⟩ | ⟨_, _, hfinished, _⟩
    · rw [hrefused] at hfailed
      rw [hresult, Except.error.inj hfailed]
    · rw [hrefused] at hfinished
      cases hfinished
  · apply iff_of_false _ hfits
    rcases h.ends.of_read hread with ⟨failure, hfailed, _⟩ | ⟨_, _, _, hresult⟩
    · rw [htaken] at hfailed
      cases hfailed
    · rw [hresult]
      exact fun hrefused => nomatch hrefused

/-- An inline run is refused at a page exactly when its output so far exceeds the limits. -/
theorem last_read {Failure Page : Type} {pages : List Page} {read : Except Failure Page} {k : Nat}
    {page : Page} (hlast : ¬k < pages.length)
    (h : (pages ++ read.toOption.toList)[k]? = some page) :
    k = pages.length ∧ read = .ok page := by
  rw [List.getElem?_append_right (Nat.le_of_not_lt hlast)] at h
  cases read with
  | error failure => cases h
  | ok last =>
      obtain ⟨hindex, hsame⟩ := List.getElem?_eq_some_iff.mp h
      have hindex : k - pages.length < 1 := hindex
      exact ⟨by omega, congrArg Except.ok (List.mem_singleton.mp (hsame ▸ List.getElem_mem _)).symm⟩

theorem StartedRun.tooLarge_at (h : StartedRun input first run followed last result)
    (hinline : input.pagination.pagesOutput = false) {k : Nat} {page : FetchedPage Number}
    {complete : Bool} (hpage : (readPages input first 1 run.requests)[k]? = some page)
    (hdecides : Decides input first (k + 1) page complete) :
    run.result = .error (refused .tooLarge (k + 1)) ↔
      ExceedsLimits (outputSoFar input ((readPages input first 1 run.requests).take (k + 1)) page
        complete) := by
  rw [h.readPages_eq] at hpage ⊢
  by_cases hfollowed : k < followed.length
  · rw [List.getElem?_append_left hfollowed] at hpage
    rw [List.take_append_of_le_length hfollowed]
    apply iff_of_false _ (h.fits_at hinline hpage hdecides)
    intro hrefused
    obtain ⟨hlast, _⟩ := h.decided_last hinline hrefused
    omega
  · obtain ⟨rfl, hread⟩ := last_read hfollowed hpage
    rw [hread]
    show _ ↔ ExceedsLimits (outputSoFar input ((followed ++ [page]).take (followed.length + 1)) page
      complete)
    have hlength : (followed ++ [page]).length = followed.length + 1 := List.length_append
    rw [List.take_of_length_le (Nat.le_of_eq hlength)]
    exact h.tooLarge_last hinline hread hdecides

/-!
## Following a page
-/

theorem NamesNewPage.decided {pages : List (FetchedPage Number)} {k : Nat}
    {page : FetchedPage Number} {target identity : ScriptString}
    (h : NamesNewPage input first pages k page target identity)
    {state : PaginationState Number Store}
    (hfollows : Follows input first 1 (startState input first) (pages.take k) state) :
    decideNext input first state.seen (1 + k) page.body page.items =
      .ok (some (.next target identity), false) := by
  have hunseen : identity ∉ state.seen := by
    intro hseen
    rcases hfollows.seen hseen with hmem | ⟨j, earlier, address, hearlier, hnamed⟩
    · exact h.unseen hmem
    · rw [List.getElem?_take] at hearlier
      split at hearlier
      · next hlt =>
        rw [Nat.add_comm 1 j] at hnamed
        exact h.fresh j earlier address hlt hearlier hnamed
      · cases hearlier
  have hnext : nextPage input.platform input.pagination first page.body (1 + k) state.seen =
      .ok (.next target identity) := by
    rw [Nat.add_comm 1 k]
    unfold nextPage
    refine bind_eq_ok_iff.mpr ⟨_, h.named, bind_eq_ok_iff.mpr ⟨_, h.checked, ?_⟩⟩
    rw [if_neg fun hcontains => hunseen (List.contains_iff_mem.mp hcontains)]
    rfl
  have hbelow : 1 + k ≠ input.pagination.maxPages := by
    rw [Nat.add_comm]
    exact h.below
  unfold decideNext nextAfter pageCompletesCollection
  rw [if_neg (by simp [h.items, hbelow]), hnext]
  refine bind_eq_ok_iff.mpr ⟨_, rfl, bind_eq_ok_iff.mpr ⟨false, ?_, rfl⟩⟩
  rw [if_neg (by simp [h.items]), if_neg (by simp [hbelow])]
  rfl

theorem follow_of_next {page : Nat} {state : PaginationState Number Store}
    {fetched : FetchedPage Number} {target identity : ScriptString} {complete : Bool}
    {outcome : PageEnd Number Store}
    (hdecided : decideNext input first state.seen page fetched.body fetched.items =
      .ok (some (.next target identity), complete))
    (h : pageOutcome input first page state fetched = .ok outcome) :
    exists following, outcome = .follow following ∧ following.url = target := by
  obtain ⟨taken, next, other, hother, _, houtcome⟩ := outcome_eq_ok h
  rw [hdecided] at hother
  cases hother
  exact ⟨_, houtcome, rfl⟩

theorem StartedRun.follows_next (h : StartedRun input first run followed last result) {k : Nat}
    {page : FetchedPage Number} {target identity : ScriptString}
    (hpage : (readPages input first 1 run.requests)[k]? = some page)
    (hnew : NamesNewPage input first (readPages input first 1 run.requests) k page target
      identity) :
    run.requests[k + 1]? = some target ∨
      run.requests.length = k + 1 ∧ exists failure, run.result = .error failure ∧
        (input.pagination.pagesOutput = false -> failure = refused .tooLarge (k + 1)) := by
  rw [h.readPages_eq] at hpage hnew
  by_cases hfollowed : k < followed.length
  · rw [List.getElem?_append_left hfollowed] at hpage
    obtain ⟨middle, following, hbefore, _, houtcome, hrequest⟩ := h.follows.at_page hpage
    rw [← List.take_append_of_le_length (Nat.le_of_lt hfollowed)] at hbefore
    obtain ⟨other, hother, htarget⟩ := follow_of_next (hnew.decided hbefore) houtcome
    cases hother
    rw [h.requests, hrequest, htarget]
    exact Or.inl rfl
  · obtain ⟨rfl, hread⟩ := last_read hfollowed hpage
    have hfollows := h.follows
    rw [← @List.take_left _ followed (readAt input first (1 + followed.length)
      last.url).toOption.toList] at hfollows
    have hdecided := hnew.decided hfollows
    rcases h.ends.of_read hread with ⟨failure, hfailed, hresult⟩ | ⟨_, _, hfinished, _⟩
    · apply Or.inr
      refine ⟨?_, failure, ?_, ?_⟩
      · rw [h.requests, List.length_append, List.length_map, List.length_singleton]
      · rw [h.result, hresult]
        rfl
      · intro hinline
        obtain ⟨htallied, _⟩ := h.follows.tallied hinline (tallied_startState input first)
        rcases outcome_inline hinline htallied (fitsLimits_of_readAt hread) hdecided with
          ⟨_, hrefused⟩ | ⟨_, htaken⟩
        · rw [hrefused, Nat.add_comm] at hfailed
          exact (Except.error.inj hfailed).symm
        · rw [htaken] at hfailed
          cases hfailed
    · obtain ⟨_, hother, _⟩ := follow_of_next hdecided hfinished
      cases hother

theorem StartedRun.accounted (h : StartedRun input first run followed last result) :
    PaginationAccounted input first run where
  started _ := by
    rw [h.requests]
    exact h.follows.head_url
  followed _ _ _ _ hpage hnew := h.follows_next hpage hnew
  bounded := by
    have hbounded := h.bounded
    rw [h.requests, List.length_append, List.length_map, List.length_singleton]
    omega
  same_origin := by
    intro request hrequest
    have hrequests := h.follows.requests
    obtain ⟨targets, heq, _⟩ := hrequests.targets
    have horigins := hrequests.origins
    rw [h.requests, heq] at hrequest
    rw [heq, List.tail_cons] at horigins
    rcases List.mem_cons.mp hrequest with hfirst | hrest
    · rw [hfirst]
      exact input.platform.origin_parse_text first
    · exact horigins request hrest
  distinct := by
    apply Or.inr
    rw [h.readPages_eq, h.requests]
    exact distinct_of_requests h.follows.requests (List.prefix_append _ _)
  read_all output houtput := by
    obtain ⟨fetched, _, _, hpages, _⟩ := h.lastPage houtput
    rw [hpages, h.requests, List.length_append, List.length_append, List.length_map]
    rfl
  items _ _ houtput := h.items_eq houtput
  too_large hinline _ _ _ hpage hdecides := h.tooLarge_at hinline hpage hdecides
  too_large_page hinline _ hrefused := h.tooLarge_page hinline hrefused
  complete output houtput := by
    obtain ⟨fetched, _, next, hpages, _, _, hdecided, _⟩ := h.lastPage houtput
    refine ⟨fetched, ?_, complete_iff hdecided⟩
    rw [hpages, List.getLast?_concat]

/-- A run that requests nothing is refused, and not for its size. -/
theorem accounted_of_unstarted (failure : RunFailure Failure) (hstopped : ¬ CanStart input)
    (hnotSize : forall other, failure ≠ refused .tooLarge other)
    (hrun : run = { requests := [], result := .error failure }) :
    PaginationAccounted input first run := by
  rw [hrun]
  constructor
  · intro hstarts
    exact absurd hstarts hstopped
  · intro k page target identity hpage
    cases hpage
  · exact Nat.zero_le _
  · intro request hrequest
    exact absurd hrequest List.not_mem_nil
  · exact Or.inl rfl
  · intro output houtput
    cases houtput
  · intro items metadata houtput
    cases houtput
  · intro _ k page complete hpage
    cases hpage
  · intro _ other hrefused
    exact absurd (Except.error.inj hrefused) (hnotSize other)
  · intro output houtput
    cases houtput

theorem executePagination_accounted (input : PaginationInput Url Number Store Failure) {url : Url}
    (hurl : input.platform.parse input.requestUrl = some url) :
    PaginationAccounted input (firstUrl input url) (executePagination input) := by
  by_cases hbudget : overBudget input = true
  · apply accounted_of_unstarted (refused .budgetExceeded 1) (by simp [CanStart, hbudget])
      fun other => nofun
    unfold executePagination
    rw [if_pos hbudget]
  · by_cases hstorage : (input.pagination.pagesOutput && input.artifacts.isNone) = true
    · apply accounted_of_unstarted (.writing (.refused .storage)) (by simp [CanStart, hstorage])
        fun other => nofun
      unfold executePagination
      rw [if_neg hbudget, hurl]
      dsimp only
      rw [if_pos hstorage]
    · have hpages : 1 + (input.pagination.maxPages - 1) = input.pagination.maxPages := by
        have := input.pagination.one_le_maxPages
        omega
      obtain ⟨followed, last, hfollows, hbounded, hrequests, hends⟩ :=
        @fetchPages_follows _ _ _ _ _ input (firstUrl input url) _ 1
          (startState input (firstUrl input url)) hpages
      rw [Nat.add_comm (input.pagination.maxPages - 1) 1, hpages] at hrequests hends
      have hrun : executePagination input =
          { requests := (fetchPages input (firstUrl input url) input.pagination.maxPages 1
              (startState input (firstUrl input url))).fst
            result := (fetchPages input (firstUrl input url) input.pagination.maxPages 1
              (startState input (firstUrl input url))).snd.bind (finishOutput input) } := by
        unfold executePagination
        rw [if_neg hbudget, hurl]
        dsimp only
        rw [if_neg hstorage]
      rw [hrun]
      exact StartedRun.accounted ⟨hfollows, hbounded, hrequests, hends, rfl⟩

/-- Every run is accounted for, and on every page that can be followed the two ways to tell
whether it announces another page agree. -/
theorem pagination_accounting (input : PaginationInput Url Number Store Failure) :
    (match input.platform.parse input.requestUrl with
      | none => (executePagination input).requests = []
      | some url => PaginationAccounted input (firstUrl input url) (executePagination input)) ∧
      forall first (current : Page Number) page seen next,
        nextPage input.platform input.pagination first current page seen = .ok next ->
        exists present, hasNextPage input.pagination current page = .ok present ∧
          (present = true ↔ next ≠ .exhausted) ∧
          (present = true ↔ AnnouncesNext input.pagination current) := by
  constructor
  · cases hurl : input.platform.parse input.requestUrl with
    | none =>
        dsimp only
        unfold executePagination
        rw [hurl]
        split <;> rfl
    | some url => exact executePagination_accounted input hurl
  · intro first current page seen next hnext
    have hpresent := hasNextPage_of_nextPage hnext
    refine ⟨_, hpresent, ?_, hasNextPage_iff hpresent⟩
    simp

end

/-!
## A run over two pages
-/

/-- Addresses in their canonical form, which is their text. -/
def canonicalAddresses : UrlPlatform ScriptString where
  parse := some
  resolve link _ := some link
  text url := url
  origin url := [asciiUnit '/'].intercalate ((url.splitOn (asciiUnit '/')).take 3)
  username _ := []
  password _ := []
  hash _ := []
  search url := url.dropWhile fun unit => unit != asciiUnit '?'
  setSearch url query :=
    url.takeWhile (fun unit => unit != asciiUnit '?') ++ asciiUnit '?' :: query
  origin_parse_text _ := rfl

def samplePagination : HttpPagination where
  mode := .nextLink (.body "$.next")
  itemsPath := "$.items"
  maxPages := 3
  delayMillis := 0
  pagesOutput := false
  one_le_maxPages := by decide
  maxPages_le := by decide
  counter_le := by decide

def sampleHeaders : Headers where
  entries := [("content-type", "application/json")]
  own := List.pairwise_singleton _ _

def sampleBody (page : Nat) : String :=
  if page = 1 then
    "\x7b\"items\":[1,2],\"next\":\"https://api.example.test/items?page=2\"\x7d"
  else "\x7b\"items\":[3],\"next\":null\x7d"

def sampleResponse (page : Nat) (url : ScriptString) : ServerResponse Nat :=
  { status := 200
    headers := sampleHeaders
    finalUrl := scriptString "https://api.example.test"
    navigation := some { url, link := none }
    body := Pages.utf8Bytes (sampleBody page).toList }

def sampleInput : PaginationInput ScriptString Nat Unit Unit where
  platform := canonicalAddresses
  client page request := .ok (sampleResponse page request.url)
  requestUrl := scriptString "https://api.example.test/items"
  timeoutMillis := 1000
  pagination := samplePagination
  inlineBytes := 65536
  artifacts := none
  store := ()
  timeLeft := none
  checkResponse _ _ := none
  count n := n

/-- Whether an inline run has an output, and its completeness. -/
def inlineComplete? (run : PaginationRun Nat Unit Unit) : Option Bool :=
  match run.result with
  | .ok (.inline _ metadata) => some metadata.complete
  | _ => none

theorem pagination_accounting_sample :
    (executePagination sampleInput).requests =
        [scriptString "https://api.example.test/items",
          scriptString "https://api.example.test/items?page=2"] ∧
      (executePagination sampleInput).requests.Nodup ∧
      exists items metadata,
        (executePagination sampleInput).result = .ok (.inline items metadata) ∧
          stringify (.array items) = "[1,2,3]".toList ∧ metadata.complete = true := by
  have haccounted : PaginationAccounted sampleInput (firstUrl sampleInput sampleInput.requestUrl)
      (executePagination sampleInput) := (pagination_accounting sampleInput).left
  have hrequests : (executePagination sampleInput).requests =
      [scriptString "https://api.example.test/items",
        scriptString "https://api.example.test/items?page=2"] := by
    decide +kernel
  have hcomplete : inlineComplete? (executePagination sampleInput) = some true := by
    decide +kernel
  have hpages : stringify (.array ((readPages sampleInput
      (firstUrl sampleInput sampleInput.requestUrl) 1
      [scriptString "https://api.example.test/items",
        scriptString "https://api.example.test/items?page=2"]).flatMap FetchedPage.items)) =
      "[1,2,3]".toList := by
    decide +kernel
  refine ⟨hrequests, ?_, ?_⟩
  · rcases haccounted.distinct with hnone | hdistinct
    · rw [hnone]
      exact List.nodup_nil
    · exact hdistinct
  · unfold inlineComplete? at hcomplete
    split at hcomplete
    · next items metadata hresult =>
      refine ⟨items, metadata, hresult, ?_, Option.some.inj hcomplete⟩
      rw [haccounted.items items metadata hresult, hrequests]
      exact hpages
    · cases hcomplete

end Pagination
end Pertexo
