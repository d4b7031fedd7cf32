import Pertexo.Library.Results
import Pertexo.Pages.Records
import Pertexo.Values.RequestParts

/-!
# Navigation between pages

A header holds links between commas. Commas inside an address or a quoted value do not
separate links.
-/

namespace Pertexo
namespace Pagination

open Library
open Pages

structure LinkScan where
  links : List (List Char)
  link : List Char
  quoted : Bool
  angle : Bool
  escaped : Bool

def scanLink (scan : LinkScan) (c : Char) : LinkScan :=
  let taken := { scan with link := scan.link ++ [c] }
  if scan.escaped then { taken with escaped := false }
  else if scan.quoted && c == '\\' then { taken with escaped := true }
  else
    match c with
    | '"' => if scan.angle then taken else { taken with quoted := !scan.quoted }
    | '<' => if scan.quoted then taken else { taken with angle := true }
    | '>' => if scan.quoted then taken else { taken with angle := false }
    | ',' =>
        if scan.quoted || scan.angle then taken
        else { scan with links := scan.links ++ [scan.link], link := [] }
    | _ => taken

/-- The links of a header, unless a quote or an address stays open. -/
def tokenizeLinks (header : List Char) : Option (List (List Char)) :=
  let scan := header.foldl scanLink
    { links := [], link := [], quoted := false, angle := false, escaped := false }
  if scan.quoted || scan.angle || scan.escaped then none else some (scan.links ++ [scan.link])

def isLineTerminator (c : Char) : Bool :=
  [0x0a, 0x0d, 0x2028, 0x2029].contains c.toNat

def isTokenChar (c : Char) : Bool :=
  c.isAlphanum || "!#$%&'*+.^_`|~-".toList.contains c

def isUnquotedChar (c : Char) : Bool :=
  isTokenChar c || c == ':' || c == '/'

def skipSpace (text : List Char) : List Char :=
  text.dropWhile isScriptSpace

def quotedValue (value : List Char) : List Char -> Option (List Char × List Char)
  | [] => none
  | '"' :: rest => some (value, rest)
  | ['\\'] => none
  | '\\' :: c :: rest => if isLineTerminator c then none else quotedValue (value ++ [c]) rest
  | c :: rest => quotedValue (value ++ [c]) rest

/-- The value behind an equals sign, if one can be read there. -/
def parameterValue (text : List Char) : Option (List Char × List Char) :=
  match text with
  | '=' :: behind =>
      match skipSpace behind with
      | '"' :: quoted => quotedValue [] quoted
      | unquoted =>
          match unquoted.takeWhile isUnquotedChar with
          | [] => none
          | value => some (value, unquoted.dropWhile isUnquotedChar)
  | _ => none

/-- The name and value of a parameter and the text behind it. -/
def linkParameter (text : List Char) : Option (List Char × List Char × List Char) :=
  match skipSpace text with
  | ';' :: behind =>
      let named := skipSpace behind
      match named.takeWhile isTokenChar with
      | [] => none
      | name =>
          let rest := skipSpace (named.dropWhile isTokenChar)
          match parameterValue rest with
          | some (value, last) => some (name.map Char.toLower, value, last)
          | none => some (name.map Char.toLower, [], rest)
  | _ => none

structure ParsedLink where
  target : List Char
  rel : Option (List Char)
  anchored : Bool
deriving DecidableEq, Repr

def takeParameter (link : ParsedLink) (name value : List Char) : ParsedLink :=
  { link with
    rel := if name == "rel".toList && link.rel.isNone then some value else link.rel
    anchored := link.anchored || name == "anchor".toList }

/-- Each parameter takes a character at least, so that the length of the text is fuel enough. -/
def linkParameters : Nat -> ParsedLink -> List Char -> Option ParsedLink
  | 0, link, text => if (skipSpace text).isEmpty then some link else none
  | fuel + 1, link, text =>
      if (skipSpace text).isEmpty then some link
      else
        match linkParameter text with
        | none => none
        | some (name, value, rest) => linkParameters fuel (takeParameter link name value) rest

def parseLink (link : List Char) : Option ParsedLink :=
  match skipSpace link with
  | '<' :: address =>
      let isTargetChar : Char -> Bool := fun c => c != '<' && c != '>'
      match address.dropWhile isTargetChar with
      | '>' :: rest =>
          if rest.any isLineTerminator then none
          else
            linkParameters rest.length
              { target := address.takeWhile isTargetChar, rel := none, anchored := false } rest
      | _ => none
  | _ => none

def splitSpaces (text : List Char) : List (List Char) :=
  text.splitOnP isScriptSpace

/-- A link with another context is not a next page of this response. -/
def ParsedLink.isNext (link : ParsedLink) : Bool :=
  !link.anchored &&
    match link.rel with
    | none => false
    | some rel => (splitSpaces rel).any fun value => value.map Char.toLower == "next".toList

/-- The next links of a header in order. An early end is taken at a target when only the
presence of one is asked for. -/
def followLinks (presenceOnly : Bool) (result : Option (List Char)) :
    List (List Char) -> Option (Option (List Char))
  | [] => some (if result == some [] then none else result)
  | link :: rest =>
      match parseLink link with
      | none => none
      | some parsed =>
          if !parsed.isNext then followLinks presenceOnly result rest
          else if presenceOnly && !parsed.target.isEmpty then some (some parsed.target)
          else
            match result with
            | none => followLinks presenceOnly (some parsed.target) rest
            | some target =>
                if target != parsed.target then none
                else followLinks presenceOnly (some parsed.target) rest

/-- The target of the next link, where the header is valid. -/
def nextLink (header : Option (List Char)) (presenceOnly : Bool) : Option (Option (List Char)) :=
  match header with
  | none => some none
  | some text =>
      if (skipSpace text).isEmpty then some none
      else (tokenizeLinks text).bind (followLinks presenceOnly none)

/-!
## Presence and resolution agree
-/

/-- Once a target is found every further next link has to repeat it. -/
theorem followLinks_of_target {target : List Char} (links : List (List Char))
    {found : Option (List Char)} (h : followLinks false (some target) links = some found) :
    found = if target = [] then none else some target := by
  induction links with
  | nil =>
      rw [followLinks] at h
      cases h
      by_cases hempty : target = [] <;> simp [hempty]
  | cons link rest ih =>
      rw [followLinks] at h
      cases hparsed : parseLink link with
      | none =>
          rw [hparsed] at h
          cases h
      | some parsed =>
          rw [hparsed] at h
          dsimp only at h
          by_cases hnext : parsed.isNext = true
          · rw [hnext] at h
            by_cases hsame : target = parsed.target
            · rw [if_neg (by simp), if_neg (by simp), if_neg (by simp [hsame]), ← hsame] at h
              exact ih h
            · rw [if_neg (by simp), if_neg (by simp), if_pos (by simp [hsame])] at h
              cases h
          · rw [if_pos (by simp [hnext])] at h
            exact ih h

theorem followLinks_presence {result : Option (List Char)} (hresult : result.getD [] = [])
    (links : List (List Char)) {found : Option (List Char)}
    (h : followLinks false result links = some found) :
    followLinks true result links = some found := by
  induction links generalizing result with
  | nil => exact h
  | cons link rest ih =>
      rw [followLinks] at h ⊢
      cases hparsed : parseLink link with
      | none =>
          rw [hparsed] at h
          cases h
      | some parsed =>
          rw [hparsed] at h
          dsimp only at h ⊢
          by_cases hnext : parsed.isNext = true
          · rw [hnext] at h ⊢
            rw [if_neg (by simp), if_neg (by simp)] at h
            rw [if_neg (by simp)]
            by_cases hempty : parsed.target = []
            · rw [if_neg (by simp [hempty])]
              rw [hempty] at h ⊢
              cases result with
              | none => exact ih rfl h
              | some target =>
                  have htarget : target = [] := hresult
                  rw [htarget] at h ⊢
                  exact ih rfl h
            · rw [if_pos (by simp [hempty])]
              cases result with
              | none =>
                  rw [followLinks_of_target rest h, if_neg hempty]
              | some target =>
                  have htarget : target = [] := hresult
                  rw [htarget] at h
                  dsimp only at h
                  rw [if_pos (by simpa using Ne.symm hempty)] at h
                  cases h
          · rw [if_pos (by simp [hnext])] at h ⊢
            exact ih hresult h

theorem nextLink_presence {header : Option (List Char)} {found : Option (List Char)}
    (h : nextLink header false = some found) : nextLink header true = some found := by
  unfold nextLink at h ⊢
  cases header with
  | none => exact h
  | some text =>
      dsimp only at h ⊢
      by_cases hempty : (skipSpace text).isEmpty = true
      · rw [if_pos hempty] at h ⊢
        exact h
      · rw [if_neg hempty] at h ⊢
        rcases Option.bind_eq_some_iff.mp h with ⟨links, hlinks, hfound⟩
        exact Option.bind_eq_some_iff.mpr ⟨links, hlinks, followLinks_presence rfl links hfound⟩

/-!
## Finding the next page

A page names the next one by a link, by a cursor, or by its number. Addresses are parsed and
written by the platform.
-/

open Values

/-- The addresses of the platform. Writing an address and reading it again keeps its origin. -/
structure UrlPlatform (Url : Type) where
  parse : ScriptString -> Option Url
  resolve : ScriptString -> ScriptString -> Option Url
  text : Url -> ScriptString
  origin : Url -> ScriptString
  username : Url -> ScriptString
  password : Url -> ScriptString
  hash : Url -> ScriptString
  search : Url -> ScriptString
  setSearch : Url -> ScriptString -> Url
  origin_parse_text : forall url, (parse (text url)).map origin = some (origin url)

/-!
## Settings
-/

inductive NextLinkSource where
  | body (path : String)
  | linkHeader
deriving DecidableEq, Repr

inductive PaginationMode where
  | nextLink (source : NextLinkSource)
  | cursor (cursorPath : String) (parameter : ScriptString)
  | page (parameter : ScriptString) (start : Nat)
  | offset (parameter : ScriptString) (start step : Nat)
deriving DecidableEq, Repr

/-- The counter of the page behind a page, for the modes that count. -/
def PaginationMode.counter (mode : PaginationMode) (page : Nat) : Nat :=
  match mode with
  | .page _ start => start + page
  | .offset _ start step => start + page * step
  | _ => 0

structure HttpPagination where
  mode : PaginationMode
  itemsPath : String
  maxPages : Nat
  delayMillis : Nat
  pagesOutput : Bool
  one_le_maxPages : 1 ≤ maxPages
  maxPages_le : maxPages ≤ 100
  counter_le : mode.counter maxPages ≤ 2 ^ 53 - 1

inductive PaginationCode where
  | originChanged
  | tooLarge
  | invalidPage
  | invalidNavigation
  | budgetExceeded
deriving DecidableEq, Repr

structure HttpPaginationFailure where
  code : PaginationCode
  page : Nat
deriving DecidableEq, Repr

/-- How a page is not reached. `badUrl` is the platform's error for an address it wrote. -/
inductive NavigationFailure where
  | pagination (failure : HttpPaginationFailure)
  | badUrl
deriving DecidableEq, Repr

inductive NextPage where
  | next (url identity : ScriptString)
  | exhausted
  | cycle
deriving DecidableEq, Repr

structure Page (Number : Type) where
  value : BoundedJsonValue Number
  url : ScriptString
  link : Option (List Char)

section Urls

variable {Url : Type} (platform : UrlPlatform Url)

def ampersand : UInt16 :=
  asciiUnit '&'

/-- Replaces a parameter where it is and keeps the text of all others. -/
def replacedParts (parameter replacement : ScriptString) (keepsEmpty : Bool) :
    Bool -> List ScriptString -> List ScriptString
  | replaced, [] => if replaced then [] else [replacement]
  | replaced, part :: rest =>
      if (searchParams part).any fun pair => pair.fst == parameter then
        if replaced then replacedParts parameter replacement keepsEmpty true rest
        else replacement :: replacedParts parameter replacement keepsEmpty true rest
      else if !part.isEmpty || keepsEmpty then
        part :: replacedParts parameter replacement keepsEmpty replaced rest
      else replacedParts parameter replacement keepsEmpty replaced rest

def setPaginationParameter (url : Url) (parameter value : ScriptString) : Url :=
  let search := platform.search url
  let parts := replacedParts parameter (formPair parameter value) (!search.isEmpty) false
    ((search.drop 1).splitOn ampersand)
  platform.setSearch url ([ampersand].intercalate parts)

def searchParameter (url : Url) (parameter : ScriptString) : Option ScriptString :=
  (searchParams (platform.search url)).lookup parameter

end Urls

section Pages

variable {Number : Type} [ScriptNumber Number]

/-- The text that a page gives for the next link or cursor. -/
def scalar (value : Option (BoundedJsonValue Number)) (page : Nat) (numeric : Bool) :
    Except NavigationFailure (Option ScriptString) :=
  match value with
  | none => .ok none
  | some .null => .ok none
  | some (.string []) => .ok none
  | some (.string text) => .ok (some text)
  | some (.number number) =>
      if numeric then .ok (some (scriptString (String.ofList (ScriptNumber.text number))))
      else .error (.pagination { code := .invalidNavigation, page })
  | some _ => .error (.pagination { code := .invalidNavigation, page })

def valueAt (value : BoundedJsonValue Number) (path : String) : Option (BoundedJsonValue Number) :=
  match resolveJsonPath value path with
  | .value found => some found
  | _ => none

/-- A next link of a header, which is a page's failure when the header is invalid. -/
def headerLink (link : Option (List Char)) (page : Nat) (presenceOnly : Bool) :
    Except NavigationFailure (Option ScriptString) :=
  match nextLink link presenceOnly with
  | none => .error (.pagination { code := .invalidNavigation, page })
  | some found => .ok (found.map fun target => scriptString (String.ofList target))

def isPresent : Option (BoundedJsonValue Number) -> Bool
  | none => false
  | some .null => false
  | some (.string []) => false
  | some _ => true

/-- A capped request needs presence, not URL resolution, origin or cycle checks. -/
def hasNextPage (pagination : HttpPagination) (current : Page Number) (page : Nat) :
    Except NavigationFailure Bool :=
  match pagination.mode with
  | .cursor cursorPath _ => .ok (isPresent (valueAt current.value cursorPath))
  | .nextLink (.body path) => .ok (isPresent (valueAt current.value path))
  | .nextLink .linkHeader => do
      let link ← headerLink current.link page true
      return link.any fun target => !target.isEmpty
  | .page _ _ => .ok true
  | .offset _ _ _ => .ok true

def namedLink (source : NextLinkSource) (current : Page Number) (page : Nat) :
    Except NavigationFailure (Option ScriptString) :=
  match source with
  | .body path => scalar (valueAt current.value path) page false
  | .linkHeader => headerLink current.link page false

section Next

variable {Url : Type} (platform : UrlPlatform Url)

/-- The address of the next page and what tells it from the pages before. -/
def nextTarget (pagination : HttpPagination) (first : Url) (current : Page Number) (page : Nat) :
    Except NavigationFailure (Option (ScriptString × ScriptString)) :=
  match pagination.mode with
  | .nextLink source => do
      let link ← namedLink source current page
      match link with
      | none => return none
      | some link =>
          match platform.resolve link current.url with
          | none => .error (.pagination { code := .invalidNavigation, page })
          | some url => return some (platform.text url, platform.text url)
  | .cursor cursorPath parameter => do
      let cursor ← scalar (valueAt current.value cursorPath) page true
      match cursor with
      | none => return none
      | some cursor =>
          return some (platform.text (setPaginationParameter platform first parameter cursor),
            cursor)
  | .page parameter _ =>
      let counter := scriptString (toString (pagination.mode.counter page))
      let target := platform.text (setPaginationParameter platform first parameter counter)
      .ok (some (target, target))
  | .offset parameter _ _ =>
      let counter := scriptString (toString (pagination.mode.counter page))
      let target := platform.text (setPaginationParameter platform first parameter counter)
      .ok (some (target, target))

/-- The checks of an address, in order. -/
def checkTarget (first : Url) (page : Nat) (target : ScriptString) :
    Except NavigationFailure Unit :=
  match platform.parse target with
  | none => .error .badUrl
  | some url =>
      if platform.origin url ≠ platform.origin first then
        .error (.pagination { code := .originChanged, page })
      else if (platform.username url).isEmpty && (platform.password url).isEmpty &&
          (platform.hash url).isEmpty && decide ((utf8Bytes target).length ≤ 2048) then
        .ok ()
      else .error (.pagination { code := .invalidNavigation, page })

def nextPage (pagination : HttpPagination) (first : Url) (current : Page Number) (page : Nat)
    (seen : List ScriptString) : Except NavigationFailure NextPage := do
  match ← nextTarget platform pagination first current page with
  | none => return .exhausted
  | some (target, identity) =>
      checkTarget platform first page target
      if seen.contains identity then return .cycle
      return .next target identity

end Next

end Pages

end Pagination
end Pertexo
