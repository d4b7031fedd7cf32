import Pertexo.Pagination.Execution

/-!
# Announced pages

Whether a page announces another is decided in one way for a capped run and in another where
the next page is to be fetched. Both agree on every page that is followed.
-/

namespace Pertexo
namespace Pagination

open Library
open Values

section

variable {Number : Type} [ScriptNumber Number]

/-- A value that names a next page: neither missing, null nor an empty text. -/
def NamesNext (value : Option (BoundedJsonValue Number)) : Prop :=
  exists found, value = some found ∧ found ≠ .null ∧ found ≠ .string []

/-- A header that is not blank holds a link to a next page with an address. -/
def HoldsNextLink (header : Option (List Char)) : Prop :=
  exists text links link parsed, header = some text ∧ (skipSpace text).isEmpty = false ∧
    tokenizeLinks text = some links ∧ link ∈ links ∧ parseLink link = some parsed ∧
    parsed.isNext = true ∧ parsed.target ≠ []

/-- A page announces another one. Pages that are counted always do. -/
def AnnouncesNext (pagination : HttpPagination) (current : Page Number) : Prop :=
  match pagination.mode with
  | .cursor cursorPath _ => NamesNext (valueAt current.value cursorPath)
  | .nextLink (.body path) => NamesNext (valueAt current.value path)
  | .nextLink .linkHeader => HoldsNextLink current.link
  | .page _ _ => True
  | .offset _ _ _ => True

omit [ScriptNumber Number] in
theorem isPresent_iff {value : Option (BoundedJsonValue Number)} :
    isPresent value = true ↔ NamesNext value := by
  unfold isPresent NamesNext
  split <;> simp_all

/-!
## Presence in a header
-/

theorem followLinks_present {result : Option (List Char)} (hresult : result.getD [] = [])
    (links : List (List Char)) {found : Option (List Char)}
    (h : followLinks true result links = some found) :
    (exists target, found = some target ∧ target ≠ []) ∧
        (exists link parsed, link ∈ links ∧ parseLink link = some parsed ∧
          parsed.isNext = true ∧ parsed.target ≠ []) ∨
      found = none ∧ forall link parsed, link ∈ links -> parseLink link = some parsed ->
        parsed.isNext = true -> parsed.target = [] := by
  induction links generalizing result with
  | nil =>
      apply Or.inr
      rw [followLinks] at h
      cases h
      constructor
      · cases result with
        | none => rfl
        | some target =>
            have htarget : target = [] := hresult
            rw [htarget]
            rfl
      · intro link parsed hlink
        exact absurd hlink List.not_mem_nil
  | cons link rest ih =>
      rw [followLinks] at h
      cases hparsed : parseLink link with
      | none =>
          rw [hparsed] at h
          cases h
      | some parsed =>
          rw [hparsed] at h
          dsimp only at h
          by_cases hnamed : parsed.isNext = true ∧ parsed.target ≠ []
          · apply Or.inl
            rw [if_neg (by simp [hnamed.left]), if_pos (by simp [hnamed.right])] at h
            cases h
            exact ⟨⟨parsed.target, rfl, hnamed.right⟩, link, parsed, List.mem_cons_self, hparsed,
              hnamed⟩
          · -- The link is passed over, so that what is found is found behind it.
            have hrest : exists other : Option (List Char), other.getD [] = [] ∧
                followLinks true other rest = some found := by
              by_cases hnext : parsed.isNext = true
              · have hempty : parsed.target = [] := not_not.mp fun hne => hnamed ⟨hnext, hne⟩
                rw [if_neg (by simp [hnext]), if_neg (by simp [hempty]), hempty] at h
                cases result with
                | none => exact ⟨_, rfl, h⟩
                | some target =>
                    have htarget : target = [] := hresult
                    rw [htarget] at h
                    exact ⟨_, rfl, h⟩
              · rw [if_pos (by simp [hnext])] at h
                exact ⟨result, hresult, h⟩
            obtain ⟨other, hother, hfollowed⟩ := hrest
            rcases ih hother hfollowed with
              ⟨hfound, later, laterParsed, hlater, hlaterParsed⟩ | ⟨hfound, hnone⟩
            · exact Or.inl ⟨hfound, later, laterParsed, List.mem_cons_of_mem _ hlater,
                hlaterParsed⟩
            · refine Or.inr ⟨hfound, fun later laterParsed hlater hlaterParsed hnext => ?_⟩
              rcases List.mem_cons.mp hlater with hsame | hbehind
              · rw [hsame, hparsed] at hlaterParsed
                cases hlaterParsed
                exact not_not.mp fun hne => hnamed ⟨hnext, hne⟩
              · exact hnone later laterParsed hbehind hlaterParsed hnext

theorem nextLink_present {header : Option (List Char)} {found : Option (List Char)}
    (h : nextLink header true = some found) :
    (exists target, found = some target ∧ target ≠ []) ∧ HoldsNextLink header ∨
      found = none ∧ ¬ HoldsNextLink header := by
  unfold nextLink at h
  cases header with
  | none =>
      cases h
      refine Or.inr ⟨rfl, ?_⟩
      rintro ⟨text, _, _, _, htext, _⟩
      cases htext
  | some text =>
      dsimp only at h
      by_cases hblank : (skipSpace text).isEmpty = true
      · rw [if_pos hblank] at h
        cases h
        refine Or.inr ⟨rfl, ?_⟩
        rintro ⟨other, _, _, _, htext, hother, _⟩
        cases htext
        rw [hblank] at hother
        cases hother
      · rw [if_neg hblank] at h
        rcases Option.bind_eq_some_iff.mp h with ⟨links, hlinks, hfollowed⟩
        rcases followLinks_present rfl links hfollowed with
          ⟨hfound, link, parsed, hlink, hparsed, hnext⟩ | ⟨hfound, hnone⟩
        · exact Or.inl ⟨hfound, text, links, link, parsed, rfl, Bool.not_eq_true _ ▸ hblank, hlinks,
            hlink, hparsed, hnext⟩
        · refine Or.inr ⟨hfound, ?_⟩
          rintro ⟨other, others, link, parsed, htext, _, hothers, hlink, hparsed, hnext, hne⟩
          cases htext
          rw [hlinks] at hothers
          cases hothers
          exact hne (hnone link parsed hlink hparsed hnext)

theorem scriptString_ne_nil {target : List Char} (h : target ≠ []) :
    scriptString (String.ofList target) ≠ [] := by
  cases target with
  | nil => exact absurd rfl h
  | cons c rest =>
      rw [scriptString, String.toList_ofList, List.flatMap_cons]
      intro hempty
      have hunits := (List.append_eq_nil_iff.mp hempty).left
      unfold charUnits at hunits
      split at hunits <;> cases hunits

omit [ScriptNumber Number] in
/-- A page that can be asked for presence has one exactly when it announces another page. -/
theorem hasNextPage_iff {pagination : HttpPagination} {current : Page Number} {page : Nat}
    {present : Bool} (h : hasNextPage pagination current page = .ok present) :
    present = true ↔ AnnouncesNext pagination current := by
  unfold hasNextPage at h
  unfold AnnouncesNext
  cases hmode : pagination.mode with
  | cursor cursorPath parameter =>
      rw [hmode] at h
      cases h
      exact isPresent_iff
  | nextLink source =>
      rw [hmode] at h
      cases source with
      | body path =>
          cases h
          exact isPresent_iff
      | linkHeader =>
          dsimp only at h ⊢
          rcases exists_of_bind_eq_ok h with ⟨link, hlink, hpresent⟩
          cases hpresent
          unfold headerLink at hlink
          cases hfound : nextLink current.link true with
          | none =>
              rw [hfound] at hlink
              cases hlink
          | some found =>
              rw [hfound] at hlink
              cases hlink
              rcases nextLink_present hfound with ⟨⟨target, rfl, hne⟩, holds⟩ | ⟨rfl, hnone⟩
              · have := scriptString_ne_nil hne
                simp [holds, this]
              · simp [hnone]
  | page parameter start =>
      rw [hmode] at h
      cases h
      simp
  | offset parameter start step =>
      rw [hmode] at h
      cases h
      simp

/-!
## Presence and resolution agree
-/

theorem isPresent_of_scalar {value : Option (BoundedJsonValue Number)} {page : Nat}
    {numeric : Bool} {found : Option ScriptString}
    (h : scalar value page numeric = .ok found) :
    isPresent value = found.isSome := by
  cases value with
  | none =>
      cases h
      rfl
  | some value =>
      cases value with
      | null =>
          cases h
          rfl
      | bool flag => cases h
      | number number =>
          unfold scalar at h
          dsimp only at h
          split at h
          · cases h
            rfl
          · cases h
      | string text =>
          cases text with
          | nil =>
              cases h
              rfl
          | cons unit rest =>
              cases h
              rfl
      | array items => cases h
      | object members => cases h

section Next

variable {Url : Type} {platform : UrlPlatform Url}

theorem hasNextPage_of_nextTarget {pagination : HttpPagination} {first : Url}
    {current : Page Number} {page : Nat} {found : Option (ScriptString × ScriptString)}
    (h : nextTarget platform pagination first current page = .ok found) :
    hasNextPage pagination current page = .ok found.isSome := by
  unfold nextTarget at h
  unfold hasNextPage
  cases hmode : pagination.mode with
  | cursor cursorPath parameter =>
      rw [hmode] at h
      dsimp only at h ⊢
      rcases exists_of_bind_eq_ok h with ⟨cursor, hcursor, hfound⟩
      rw [isPresent_of_scalar hcursor]
      cases cursor with
      | none =>
          cases hfound
          rfl
      | some cursor =>
          cases hfound
          rfl
  | nextLink source =>
      rw [hmode] at h
      dsimp only at h
      rcases exists_of_bind_eq_ok h with ⟨link, hlink, hfound⟩
      have hsome : found.isSome = link.isSome := by
        cases link with
        | none =>
            cases hfound
            rfl
        | some link =>
            dsimp only at hfound
            split at hfound
            · cases hfound
            · cases hfound
              rfl
      cases source with
      | body path =>
          dsimp only
          rw [isPresent_of_scalar hlink, hsome]
      | linkHeader =>
          dsimp only
          unfold namedLink headerLink at hlink
          unfold headerLink
          cases hheader : nextLink current.link false with
          | none =>
              rw [hheader] at hlink
              cases hlink
          | some target =>
              rw [hheader] at hlink
              cases hlink
              have hpresence := nextLink_presence hheader
              rw [hpresence, hsome]
              rcases nextLink_present hpresence with ⟨⟨text, rfl, hne⟩, _⟩ | ⟨rfl, _⟩
              · have := scriptString_ne_nil hne
                simp [bind, Except.bind, pure, Except.pure, this]
              · rfl
  | page parameter start =>
      rw [hmode] at h
      cases h
      rfl
  | offset parameter start step =>
      rw [hmode] at h
      cases h
      rfl

theorem nextPage_eq_ok {pagination : HttpPagination} {first : Url} {current : Page Number}
    {page : Nat} {seen : List ScriptString} {next : NextPage}
    (h : nextPage platform pagination first current page seen = .ok next) :
    nextTarget platform pagination first current page = .ok none ∧ next = .exhausted ∨
      exists target identity,
        nextTarget platform pagination first current page = .ok (some (target, identity)) ∧
          checkTarget platform first page target = .ok () ∧
          (identity ∈ seen ∧ next = .cycle ∨ identity ∉ seen ∧ next = .next target identity) := by
  unfold nextPage at h
  rcases exists_of_bind_eq_ok h with ⟨found, hfound, hnext⟩
  cases found with
  | none =>
      cases hnext
      exact Or.inl ⟨hfound, rfl⟩
  | some pair =>
      obtain ⟨target, identity⟩ := pair
      dsimp only at hnext
      rcases exists_of_bind_eq_ok hnext with ⟨_, hchecked, hnext⟩
      refine Or.inr ⟨target, identity, hfound, hchecked, ?_⟩
      by_cases hseen : identity ∈ seen
      · rw [if_pos (List.contains_iff_mem.mpr hseen)] at hnext
        cases hnext
        exact Or.inl ⟨hseen, rfl⟩
      · rw [if_neg fun hcontains => hseen (List.contains_iff_mem.mp hcontains)] at hnext
        cases hnext
        exact Or.inr ⟨hseen, rfl⟩

theorem hasNextPage_of_nextPage {pagination : HttpPagination} {first : Url}
    {current : Page Number} {page : Nat} {seen : List ScriptString} {next : NextPage}
    (h : nextPage platform pagination first current page seen = .ok next) :
    hasNextPage pagination current page = .ok (next != .exhausted) := by
  rcases nextPage_eq_ok h with ⟨htarget, rfl⟩ | ⟨target, identity, htarget, _, hnext⟩
  · exact hasNextPage_of_nextTarget htarget
  · rw [hasNextPage_of_nextTarget htarget]
    rcases hnext with ⟨_, rfl⟩ | ⟨_, rfl⟩ <;> rfl

end Next

end

end Pagination
end Pertexo
