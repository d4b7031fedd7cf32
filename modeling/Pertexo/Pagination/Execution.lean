import Pertexo.Pages.Write
import Pertexo.Pagination.Inspection
import Pertexo.Pagination.Navigation

/-!
# Fetching pages

Pages are fetched one after another until one announces no further page, or the bound of the
settings is reached. Inline output keeps the items of all pages; paged output stores them as
they come.
-/

namespace Pertexo
namespace Pagination

open Library
open Values
open Canonical
open Pages (NodeArtifactRuntime PageWriter FilePageBundle FilePagesReason WriteFailure startPages
  flush writeRecord encodeFilePageRecord decodeText isScriptSpace)

def nodeExecutionLimits : BoundedJsonLimits :=
  { bytes := 1048576
    depth := 64
    members := 10000 }

/-!
## The client
-/

structure Headers where
  entries : List (String × String)
  own : OwnOrder (entries.map fun entry => (scriptString entry.fst, entry.snd))

structure ResponseNavigation where
  url : ScriptString
  link : Option (List Char)

structure ServerResponse (Number : Type) where
  status : Number
  headers : Headers
  finalUrl : ScriptString
  navigation : Option ResponseNavigation
  body : ByteArray

structure ProviderRequest where
  url : ScriptString
  origin : ScriptString
  link : Bool
  maxResponseBytes : Nat

structure ClientFailure (Failure : Type) where
  code : Option String
  failure : Failure

inductive RunFailure (Failure : Type) where
  | pagination (failure : HttpPaginationFailure)
  | badUrl
  | client (failure : Failure)
  | response (failure : Failure)
  | json (failure : InvalidJsonValueError)
  | record (reason : FilePagesReason)
  | writing (failure : WriteFailure Failure)
  | boundExhausted

structure PaginationInput (Url Number Store Failure : Type) where
  platform : UrlPlatform Url
  client : Nat -> ProviderRequest -> Except (ClientFailure Failure) (ServerResponse Number)
  requestUrl : ScriptString
  timeoutMillis : Nat
  pagination : HttpPagination
  inlineBytes : Nat
  artifacts : Option (NodeArtifactRuntime Store Failure)
  store : Store
  timeLeft : Option Int
  checkResponse : Number -> Headers -> Option Failure
  count : Nat -> Number

section

variable {Url Number Store Failure : Type}

def refused (code : PaginationCode) (page : Nat) : RunFailure Failure :=
  .pagination { code, page }

def NavigationFailure.run : NavigationFailure -> RunFailure Failure
  | .pagination failure => .pagination failure
  | .badUrl => .badUrl

/-!
## Reading a page
-/

/-- The name of the format, with nothing but a parameter behind it. -/
def isJsonName (text : List Char) : Bool :=
  text.take 4 == "json".toList &&
    match (text.drop 4).dropWhile isScriptSpace with
    | [] => true
    | c :: _ => c == ';'

/-- A subtype that is JSON, or that has it for a suffix. -/
def isJsonSubtype (text : List Char) : Bool :=
  let isSubtypeChar : Char -> Bool := fun c => isTokenChar c && c != '+'
  isJsonName text ||
    match text.dropWhile isSubtypeChar with
    | '+' :: rest => !(text.takeWhile isSubtypeChar).isEmpty && isJsonName rest
    | _ => false

def isJsonMediaType (header : String) : Bool :=
  let text := (header.toList.dropWhile isScriptSpace).map Char.toLower
  let application := "application/".toList
  let plain := "text/".toList
  (text.take application.length == application && isJsonSubtype (text.drop application.length)) ||
    (text.take plain.length == plain && isJsonName (text.drop plain.length))

variable [ScriptNumber Number]

def parsePageBody (body : ByteArray) : Option (BoundedJsonValue Number) := do
  let text ← decodeText body
  let value ← parseJson text
  (canonicalizeBoundedJson value nodeExecutionLimits).toOption

def readPage (response : ServerResponse Number) (page : Nat) :
    Except (RunFailure Failure) (Page Number) :=
  match response.navigation with
  | none => .error (refused .invalidPage page)
  | some navigation =>
      if isJsonMediaType ((response.headers.entries.lookup "content-type").getD "") then
        match parsePageBody response.body with
        | none => .error (refused .invalidPage page)
        | some value => .ok { value, url := navigation.url, link := navigation.link }
      else .error (refused .invalidPage page)

def PaginationMode.wantsLink : PaginationMode -> Bool
  | .nextLink .linkHeader => true
  | _ => false

/-- The failure of a page for an error of the client. -/
def clientFailure (failure : ClientFailure Failure) (page : Nat) : RunFailure Failure :=
  match failure.code with
  | some "pagination_origin_changed" => refused .originChanged page
  | some "pagination_navigation_invalid" => refused .invalidNavigation page
  | some "response_too_large" => refused .invalidPage page
  | some "response_encoding_rejected" => refused .invalidPage page
  | _ => .client failure.failure

def fetchPage (input : PaginationInput Url Number Store Failure) (url origin : ScriptString)
    (page : Nat) : Except (RunFailure Failure) (ServerResponse Number × Page Number) :=
  match input.client page
      { url, origin, link := input.pagination.mode.wantsLink,
        maxResponseBytes := input.inlineBytes } with
  | .error failure => .error (clientFailure failure page)
  | .ok response =>
      match input.checkResponse response.status response.headers with
      | some failure => .error (.response failure)
      | none => (readPage response page).map fun body => (response, body)

def itemsOf (pagination : HttpPagination) (body : Page Number) (page : Nat) :
    Except (RunFailure Failure) (List (BoundedJsonValue Number)) :=
  match resolveJsonPath body.value pagination.itemsPath with
  | .value (.array items) => .ok items
  | _ => .error (refused .invalidPage page)

/-!
## One page
-/

structure PageMetadata (Number : Type) where
  pageCount : Nat
  complete : Bool
  status : Number
  headers : Headers
  finalOrigin : ScriptString

def headersValue (headers : Headers) : BoundedJsonValue Number :=
  .object (headers.entries.map fun entry =>
    (scriptString entry.fst, .string (scriptString entry.snd)))

def outputValue (count : Nat -> Number) (items : List (BoundedJsonValue Number))
    (metadata : PageMetadata Number) : BoundedJsonValue Number :=
  .object
    [(scriptString "items", .array items),
      (scriptString "pageCount", .number (count metadata.pageCount)),
      (scriptString "complete", .bool metadata.complete),
      (scriptString "status", .number metadata.status),
      (scriptString "headers", headersValue metadata.headers),
      (scriptString "finalOrigin", .string metadata.finalOrigin)]

structure PaginationState (Number Store : Type) where
  url : ScriptString
  seen : List ScriptString
  items : List (BoundedJsonValue Number)
  itemBytes : Nat
  itemMembers : Nat
  itemDepth : Nat
  writer : PageWriter Store

def exceedsInlinePageEnvelope (envelope : JsonInspection) (itemBytes itemMembers itemDepth : Nat) :
    Bool :=
  decide (nodeExecutionLimits.bytes < envelope.bytes + itemBytes) ||
    decide (nodeExecutionLimits.members < envelope.members + itemMembers) ||
    decide (nodeExecutionLimits.depth < max envelope.depth (itemDepth + 1))

/-- Paged output is not measured. -/
def addedSizes (input : PaginationInput Url Number Store Failure)
    (pageItems : List (BoundedJsonValue Number)) : Except (RunFailure Failure) JsonInspection :=
  if input.pagination.pagesOutput then .ok { bytes := 2, depth := 1, members := 0 }
  else (inspectJsonValue (stored 0 (.array pageItems))).mapError .json

/-- The sizes of a page's items, added to those of the items before. -/
def countItems (input : PaginationInput Url Number Store Failure)
    (state : PaginationState Number Store) (pageItems : List (BoundedJsonValue Number)) :
    Except (RunFailure Failure) (PaginationState Number Store) := do
  let added ← addedSizes input pageItems
  return { state with
    itemBytes := state.itemBytes + (added.bytes - 2) +
      if !state.items.isEmpty && !pageItems.isEmpty then 1 else 0
    itemMembers := state.itemMembers + added.members
    itemDepth := max state.itemDepth added.depth }

/-- What is found behind a page that has items and is not the last that may be fetched. -/
def nextAfter (input : PaginationInput Url Number Store Failure) (first : Url)
    (seen : List ScriptString) (page : Nat) (body : Page Number)
    (pageItems : List (BoundedJsonValue Number)) : Except NavigationFailure (Option NextPage) :=
  if pageItems.isEmpty || page == input.pagination.maxPages then .ok none
  else (nextPage input.platform input.pagination first body page seen).map some

def pageCompletesCollection (pagination : HttpPagination) (body : Page Number) (page : Nat)
    (pageItems : List (BoundedJsonValue Number)) (next : Option NextPage) :
    Except NavigationFailure Bool :=
  if pageItems.isEmpty then .ok true
  else if page == pagination.maxPages then
    (hasNextPage pagination body page).map fun present => !present
  else .ok (next == some .exhausted)

/-- What is behind a page, and whether the page completes the collection. -/
def decideNext (input : PaginationInput Url Number Store Failure) (first : Url)
    (seen : List ScriptString) (page : Nat) (body : Page Number)
    (pageItems : List (BoundedJsonValue Number)) :
    Except NavigationFailure (Option NextPage × Bool) := do
  let next ← nextAfter input first seen page body pageItems
  let complete ← pageCompletesCollection input.pagination body page pageItems next
  return (next, complete)

def pageMetadata (page : Nat) (response : ServerResponse Number) (complete : Bool) :
    PageMetadata Number :=
  { pageCount := page
    complete
    status := response.status
    headers := response.headers
    finalOrigin := response.finalUrl }

/-- Inline output is measured as the empty output with the sizes of all items added. -/
def outputTooLarge (input : PaginationInput Url Number Store Failure)
    (counted : PaginationState Number Store) (metadata : PageMetadata Number) :
    Except (RunFailure Failure) Bool := do
  let envelope ← (inspectJsonValue (stored 0 (outputValue input.count [] metadata))).mapError .json
  return !input.pagination.pagesOutput &&
    exceedsInlinePageEnvelope envelope counted.itemBytes counted.itemMembers counted.itemDepth

def storeItem (artifacts : NodeArtifactRuntime Store Failure) (writer : PageWriter Store)
    (item : BoundedJsonValue Number) : Except (RunFailure Failure) (PageWriter Store) := do
  let record ← (encodeFilePageRecord item.script).mapError .record
  (writeRecord artifacts writer record).mapError .writing

def takeItems (input : PaginationInput Url Number Store Failure)
    (state : PaginationState Number Store) (pageItems : List (BoundedJsonValue Number)) :
    Except (RunFailure Failure) (PaginationState Number Store) :=
  if input.pagination.pagesOutput then
    match input.artifacts with
    | none => .error (.writing (.refused .storage))
    | some artifacts =>
        (pageItems.foldlM (storeItem artifacts) state.writer).map fun writer =>
          { state with writer }
  else .ok { state with items := state.items ++ pageItems }

inductive PageEnd (Number Store : Type) where
  | finished (state : PaginationState Number Store) (metadata : PageMetadata Number)
  | follow (state : PaginationState Number Store)

def pageEnd (taken : PaginationState Number Store) (metadata : PageMetadata Number) :
    Option NextPage -> PageEnd Number Store
  | some (.next url identity) => .follow { taken with url, seen := identity :: taken.seen }
  | _ => .finished taken metadata

def paginationPage (input : PaginationInput Url Number Store Failure) (first : Url) (page : Nat)
    (state : PaginationState Number Store) :
    Except (RunFailure Failure) (PageEnd Number Store) := do
  let (response, body) ← fetchPage input state.url (input.platform.origin first) page
  let pageItems ← itemsOf input.pagination body page
  let counted ← countItems input state pageItems
  let (next, complete) ←
    (decideNext input first state.seen page body pageItems).mapError NavigationFailure.run
  let metadata := pageMetadata page response complete
  if ← outputTooLarge input counted metadata then
    throw (refused .tooLarge page)
  let taken ← takeItems input counted pageItems
  return pageEnd taken metadata next

/-!
## A run
-/

/-- The pages from one on. A run is reported with the addresses it has requested. -/
def fetchPages (input : PaginationInput Url Number Store Failure) (first : Url) :
    Nat -> Nat -> PaginationState Number Store -> List ScriptString ×
      Except (RunFailure Failure) (PaginationState Number Store × PageMetadata Number)
  | 0, _, _ => ([], .error .boundExhausted)
  | remaining + 1, page, state =>
      match paginationPage input first page state with
      | .error failure => ([state.url], .error failure)
      | .ok (.finished finished metadata) => ([state.url], .ok (finished, metadata))
      | .ok (.follow following) =>
          let rest := fetchPages input first remaining (page + 1) following
          (state.url :: rest.fst, rest.snd)

inductive PaginationOutput (Number Store : Type) where
  | inline (items : List (BoundedJsonValue Number)) (metadata : PageMetadata Number)
  | pages (bundle : FilePageBundle) (store : Store) (metadata : PageMetadata Number)

structure PaginationRun (Number Store Failure : Type) where
  requests : List ScriptString
  result : Except (RunFailure Failure) (PaginationOutput Number Store)

def firstUrl (input : PaginationInput Url Number Store Failure) (url : Url) : Url :=
  match input.pagination.mode with
  | .page parameter start =>
      setPaginationParameter input.platform url parameter (scriptString (toString start))
  | .offset parameter start _ =>
      setPaginationParameter input.platform url parameter (scriptString (toString start))
  | _ => url

/-- What tells the first page from the pages behind it. -/
def firstSeen (input : PaginationInput Url Number Store Failure) (first : Url) :
    List ScriptString :=
  match input.pagination.mode with
  | .cursor _ parameter => (searchParameter input.platform first parameter).toList
  | _ => [input.platform.text first]

def startState (input : PaginationInput Url Number Store Failure) (first : Url) :
    PaginationState Number Store :=
  { url := input.platform.text first
    seen := firstSeen input first
    items := []
    itemBytes := 0
    itemMembers := 0
    itemDepth := 1
    writer := startPages input.store }

def finishOutput (input : PaginationInput Url Number Store Failure)
    (finished : PaginationState Number Store × PageMetadata Number) :
    Except (RunFailure Failure) (PaginationOutput Number Store) :=
  if input.pagination.pagesOutput then
    match input.artifacts with
    | none => .error (.writing (.refused .storage))
    | some artifacts =>
        ((flush artifacts finished.fst.writer).mapError .writing).map fun writer =>
          .pages writer.bundle writer.store finished.snd
  else .ok (.inline finished.fst.items finished.snd)

def overBudget (input : PaginationInput Url Number Store Failure) : Bool :=
  match input.timeLeft with
  | none => false
  | some left =>
      decide (left < input.pagination.maxPages *
        (input.timeoutMillis + input.pagination.delayMillis))

def executePagination (input : PaginationInput Url Number Store Failure) :
    PaginationRun Number Store Failure :=
  if overBudget input then
    { requests := [], result := .error (refused .budgetExceeded 1) }
  else
    match input.platform.parse input.requestUrl with
    | none => { requests := [], result := .error .badUrl }
    | some url =>
        if input.pagination.pagesOutput && input.artifacts.isNone then
          { requests := [], result := .error (.writing (.refused .storage)) }
        else
          let first := firstUrl input url
          let run := fetchPages input first input.pagination.maxPages 1 (startState input first)
          { requests := run.fst, result := run.snd.bind (finishOutput input) }

end

end Pagination
end Pertexo
