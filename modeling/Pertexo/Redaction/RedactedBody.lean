import Pertexo.Library.Sorting
import Pertexo.Redaction.BodyViews
import Pertexo.Redaction.FallbackLinks

/-!
# Redacted bodies

## Matches of a view
-/

namespace Pertexo
namespace Redaction

open Library
open Values

/-- Where an occurrence of a pattern in the bytes comes from. -/
structure IsOccurrence (patterns : List Bytes) (sourced : List SourcedByte) (span : Span Nat) :
    Prop where
  found : exists front found back first last, sourced = front ++ found ++ back ∧
    found.map SourcedByte.byte ∈ patterns ∧ found.head? = some first ∧
    found.getLast? = some last ∧ span = { start := first.start, stop := last.stop }

/-- The match for the longest pattern at the end of the bytes read so far. -/
structure IsMatch (patterns : List Bytes) (view : DecodedBodyView) (read : Bytes) (found : Match) :
    Prop where
  longest : exists length, length ≠ 0 ∧ IsLongestPattern (patternSet patterns) read length ∧
    found = { start := view.sourceStart (read.length - length)
              stop := view.sourceEnd read.length }

theorem findStep_spec {patterns : List Bytes} {view : DecodedBodyView} (read : Bytes) :
    (read.foldl (findStep (prepareAutomaton patterns) view) {}).state =
        stateAfter (prepareAutomaton patterns) read ∧
      (read.foldl (findStep (prepareAutomaton patterns) view) {}).index = read.length ∧
      forall found, found ∈ (read.foldl (findStep (prepareAutomaton patterns) view) {}).found ↔
        exists front, front <+: read ∧ IsMatch patterns view front found := by
  induction read using List.reverseRecOn with
  | nil =>
      refine ⟨rfl, rfl, ?_⟩
      intro found
      constructor
      · intro hfound
        cases hfound
      · rintro ⟨front, hfront, ⟨length, hlength, hlongest, _⟩⟩
        rw [List.prefix_nil.mp hfront] at hlongest
        exact absurd (hlongest.eq isLongestPattern_nil) hlength
  | append_singleton read byte ih =>
      rcases ih with ⟨hstate, hindex, hfound⟩
      rw [List.foldl_append]
      generalize read.foldl (findStep (prepareAutomaton patterns) view) {} = progress at *
      have hnext : nextState (prepareAutomaton patterns) progress.state byte =
          stateAfter (prepareAutomaton patterns) (read ++ [byte]) := by
        rw [hstate, stateAfter, stateAfter, List.foldl_append]
        rfl
      have hlongest := length_stateAfter patterns (read ++ [byte])
      rw [← hnext] at hlongest
      have hlength : (read ++ [byte]).length = progress.index + 1 := by
        rw [List.length_append, List.length_singleton, hindex]
      refine ⟨hnext, hlength.symm, ?_⟩
      intro found
      show found ∈ (if _ then _ else _) ↔ _
      have hsplit : (exists front, front <+: read ++ [byte] ∧ IsMatch patterns view front found) ↔
          IsMatch patterns view (read ++ [byte]) found ∨
            exists front, front <+: read ∧ IsMatch patterns view front found := by
        constructor
        · rintro ⟨front, hfront, hmatch⟩
          rcases List.prefix_concat_iff.mp hfront with rfl | hshort
          · exact Or.inl hmatch
          · exact Or.inr ⟨front, hshort, hmatch⟩
        · rintro (hmatch | ⟨front, hfront, hmatch⟩)
          · exact ⟨_, List.prefix_refl _, hmatch⟩
          · exact ⟨front, hfront.trans (List.prefix_append _ _), hmatch⟩
      rw [hsplit]
      split
      · next hnonzero =>
        rw [List.mem_append, List.mem_singleton, hfound]
        constructor
        · rintro (hold | rfl)
          · exact Or.inr hold
          · refine Or.inl ⟨_, bne_iff_ne.mp hnonzero, hlongest, ?_⟩
            rw [hlength]
        · rintro (⟨length, _, hother, rfl⟩ | hold)
          · apply Or.inr
            rw [hother.eq hlongest, hlength]
          · exact Or.inl hold
      · next hzero =>
        rw [bne_iff_ne, not_not] at hzero
        rw [hfound]
        constructor
        · exact Or.inr
        · rintro (⟨length, hnonzero, hother, _⟩ | hold)
          · exact absurd ((hother.eq hlongest).trans hzero) hnonzero
          · exact hold

theorem mem_find {patterns : List Bytes} {view : DecodedBodyView} {found : Match} :
    found ∈ find (prepareAutomaton patterns) view ↔
      exists front, front <+: view.bytes ∧ IsMatch patterns view front found :=
  (findStep_spec view.bytes).right.right found

section

variable {patterns : List Bytes} {view : DecodedBodyView} {sourced : List SourcedByte}

theorem head?_eq_of_split {front found back : List SourcedByte} {first : SourcedByte}
    (hfirst : found.head? = some first) :
    (front ++ found ++ back)[front.length]? = some first := by
  cases found with
  | nil => cases hfirst
  | cons b rest =>
      cases hfirst
      rw [List.append_assoc, List.getElem?_append_right (Nat.le_refl _), Nat.sub_self]
      rfl

theorem getLast?_eq_of_split {front found back : List SourcedByte} {last : SourcedByte}
    (hlast : found.getLast? = some last) :
    (front ++ found ++ back)[front.length + found.length - 1]? = some last := by
  rcases List.eq_nil_or_concat found with rfl | ⟨init, b, rfl⟩
  · cases hlast
  · rw [List.concat_eq_append, List.getLast?_concat] at hlast
    cases hlast
    rw [List.concat_eq_append, List.length_append, List.length_singleton, ← Nat.add_assoc,
      Nat.add_sub_cancel, List.append_assoc, List.getElem?_append_right (Nat.le_add_right _ _),
      Nat.add_sub_cancel_left, List.append_assoc, List.getElem?_append_right (Nat.le_refl _),
      Nat.sub_self]
    rfl

/-- A match is an occurrence of a pattern. -/
theorem isOccurrence_of_isMatch (hreads : Reads view sourced) {read : Bytes}
    (hread : read <+: view.bytes) {found : Match} (h : IsMatch patterns view read found) :
    IsOccurrence patterns sourced found := by
  rcases h.longest with ⟨length, hnonzero, hlongest, rfl⟩
  rcases hlongest.left with hzero | ⟨pattern, hpattern, ⟨before, rfl⟩, rfl⟩
  · exact absurd hzero hnonzero
  · rcases hread with ⟨later, hbytes⟩
    rw [hreads.bytes, eq_comm, List.map_eq_append_iff] at hbytes
    rcases hbytes with ⟨start, back, rfl, hstart, _⟩
    rcases List.map_eq_append_iff.mp hstart with ⟨front, occurrence, rfl, hfront, hoccurrence⟩
    have hlength : occurrence.length = pattern.length := by
      rw [← hoccurrence, List.length_map]
    have hbefore : before.length = front.length := by
      rw [← hfront, List.length_map]
    cases hfirst : occurrence.head? with
    | none =>
        rw [List.head?_eq_none_iff.mp hfirst] at hlength
        exact absurd hlength.symm hnonzero
    | some first =>
        cases hlast : occurrence.getLast? with
        | none =>
            rw [List.getLast?_eq_none_iff.mp hlast] at hfirst
            cases hfirst
        | some last =>
            refine ⟨front, occurrence, back, first, last, rfl, ?_, hfirst, hlast, ?_⟩
            · rw [hoccurrence]
              exact hpattern
            · have hstarts := hreads.starts _ _ (head?_eq_of_split hfirst)
              have hstops := hreads.stops _ _ (getLast?_eq_of_split hlast)
              have hpos : 0 < pattern.length := Nat.pos_of_ne_zero hnonzero
              rw [hlength, Nat.sub_add_cancel (hpos.trans_le (Nat.le_add_left _ _))] at hstops
              rw [List.length_append, hbefore, Nat.add_sub_cancel, hstarts, hstops]

/-- An occurrence of a pattern lies within the match at its end. -/
theorem exists_match_of_isOccurrence {length : Nat} (hsourced : IsSourced length sourced)
    (hreads : Reads view sourced) {span : Span Nat} (h : IsOccurrence patterns sourced span) :
    exists found, found ∈ find (prepareAutomaton patterns) view ∧ span.Within found := by
  rcases h.found with ⟨front, occurrence, back, first, last, rfl, hpattern, hfirst, hlast, rfl⟩
  have hpos : 0 < occurrence.length := by
    cases occurrence with
    | nil => cases hfirst
    | cons b rest => exact Nat.succ_pos _
  have hread : (front ++ occurrence).map SourcedByte.byte <+: view.bytes := by
    rw [hreads.bytes]
    exact (List.prefix_append (front ++ occurrence) back).map SourcedByte.byte
  have hlongest := length_stateAfter patterns ((front ++ occurrence).map SourcedByte.byte)
  generalize ((prepareAutomaton patterns) (stateAfter (prepareAutomaton patterns)
    ((front ++ occurrence).map SourcedByte.byte))).length = longest at hlongest
  have hle : occurrence.length ≤ longest := by
    apply hlongest.right
    refine Or.inr ⟨_, hpattern, ?_, by rw [List.length_map]⟩
    rw [List.map_append]
    exact List.suffix_append _ _
  have hlength : ((front ++ occurrence).map SourcedByte.byte).length =
      front.length + occurrence.length := by
    rw [List.length_map, List.length_append]
  refine ⟨_, mem_find.mpr ⟨_, hread, ⟨longest, ?_, hlongest, rfl⟩⟩, ?_, ?_⟩
  · exact Nat.pos_iff_ne_zero.mp (hpos.trans_le hle)
  · show view.sourceStart _ ≤ first.start
    rw [hlength]
    have hindex : front.length + occurrence.length - longest ≤ front.length := by omega
    have hin : front.length + occurrence.length - longest <
        (front ++ occurrence ++ back).length := by
      rw [List.length_append, List.length_append]
      omega
    rw [hreads.starts _ _ (List.getElem?_eq_getElem hin)]
    exact (hsourced.le hindex (List.getElem?_eq_getElem hin) (head?_eq_of_split hfirst)).left
  · show last.stop ≤ view.sourceEnd _
    have hstops := hreads.stops _ _ (getLast?_eq_of_split hlast)
    rw [Nat.sub_add_cancel (hpos.trans_le (Nat.le_add_left _ _))] at hstops
    rw [hlength, hstops]

theorem IsOccurrence.bounds {length : Nat} (hsourced : IsSourced length sourced)
    {span : Span Nat} (h : IsOccurrence patterns sourced span) :
    span.start < span.stop ∧ span.stop ≤ length := by
  rcases h.found with ⟨front, occurrence, back, first, last, rfl, _, hfirst, hlast, rfl⟩
  have hpos : 0 < occurrence.length := by
    cases occurrence with
    | nil => cases hfirst
    | cons b rest => exact Nat.succ_pos _
  have hlater : (front ++ occurrence ++ back)[front.length + occurrence.length - 1]? =
      some last := getLast?_eq_of_split hlast
  have hordered := hsourced.le (Nat.le_sub_one_of_lt (Nat.lt_add_of_pos_right hpos))
    (head?_eq_of_split hfirst) hlater
  have hbounds := hsourced.bounds last (List.mem_of_getElem? hlater)
  exact ⟨hordered.left.trans_lt hbounds.left, hbounds.right⟩

end

/-!
## Masked chains
-/

/-- The source with every chain replaced by a mask, and every other byte in place. -/
def maskChains (source : Bytes) : Nat -> List (Span Nat) -> Bytes
  | written, [] => source.drop written
  | written, chain :: rest =>
      (source.take chain.start).drop written ++ mask ++ maskChains source chain.stop rest

theorem maskMatches_done {source : Bytes} {written : Nat} (hwritten : written ≤ source.length)
    (found : List Match) (h : forall other, other ∈ found -> source.length ≤ other.start) :
    maskMatches source source.length written found =
      (source.drop written, source.length) := by
  have hdone : (if written < source.length then
      ((source.take source.length).drop written, source.length) else ([], written)) =
      (source.drop written, source.length) := by
    split
    · rw [List.take_length]
    · next hfull =>
      have heq : written = source.length := Nat.le_antisymm hwritten (Nat.not_lt.mp hfull)
      rw [heq, List.drop_length]
  cases found with
  | nil => exact hdone
  | cons other rest =>
      rw [maskMatches, if_pos (h other (List.mem_cons_self ..))]
      exact hdone

/-- The sweep masks the chains of the sorted matches. -/
theorem maskMatches_extendChain {source : Bytes} {chain : Match} {found : List Match}
    (hstop : chain.stop ≤ source.length)
    (hfound : forall other, other ∈ found -> other.start < other.stop ∧
      other.stop ≤ source.length) :
    exists stop rest, extendChain chain found = { start := chain.start, stop := stop } :: rest ∧
      maskMatches source source.length chain.stop found =
        (maskChains source stop rest, source.length) := by
  induction found generalizing chain with
  | nil =>
      refine ⟨chain.stop, [], rfl, ?_⟩
      exact maskMatches_done hstop [] fun other hother => nomatch hother
  | cons other rest ih =>
      rcases hfound other (List.mem_cons_self ..) with ⟨hnonempty, hin⟩
      have hrest : forall later, later ∈ rest -> later.start < later.stop ∧
          later.stop ≤ source.length :=
        fun later hlater => hfound later (List.mem_cons_of_mem _ hlater)
      have hbefore : ¬ source.length ≤ other.start := by omega
      rw [extendChain, maskMatches, if_neg hbefore]
      split
      · next hoverlaps =>
        exact @ih { start := chain.start, stop := max chain.stop other.stop }
          (max_le hstop hin) hrest
      · next hapart =>
        rcases ih hin hrest with ⟨stop, later, hchains, hmasks⟩
        refine ⟨chain.stop, extendChain other rest, rfl, ?_⟩
        rw [hchains, hmasks]
        rfl

theorem maskMatches_chainsOf {source : Bytes} {found : List Match}
    (hfound : forall other, other ∈ found -> other.start < other.stop ∧
      other.stop ≤ source.length) :
    maskMatches source source.length 0 found =
      (maskChains source 0 (chainsOf found), source.length) := by
  cases found with
  | nil => exact maskMatches_done (Nat.zero_le _) [] fun other hother => nomatch hother
  | cons first rest =>
      rcases hfound first (List.mem_cons_self ..) with ⟨hnonempty, hin⟩
      have hrest : forall later, later ∈ rest -> later.start < later.stop ∧
          later.stop ≤ source.length :=
        fun later hlater => hfound later (List.mem_cons_of_mem _ hlater)
      rcases maskMatches_extendChain hin hrest with ⟨stop, later, hchains, hmasks⟩
      have hbefore : ¬ source.length ≤ first.start := by omega
      rw [maskMatches, if_neg hbefore, if_neg (Nat.not_lt_zero _), chainsOf, hchains, hmasks]
      rfl

/-!
## Final redaction
-/

theorem isLE_compareMatches_iff {left right : Match} :
    (compareMatches left right).isLE = true ↔
      left.start < right.start ∨ (left.start = right.start ∧ right.stop ≤ left.stop) := by
  unfold compareMatches
  rcases Nat.lt_trichotomy left.start right.start with hlt | heq | hgt
  · rw [Nat.compare_eq_lt.mpr hlt]
    simp [hlt]
  · rw [Nat.compare_eq_eq.mpr heq]
    simp [heq, Nat.isLE_compare]
  · rw [Nat.compare_eq_gt.mpr hgt]
    simp [Nat.lt_asymm hgt, Nat.ne_of_gt hgt]

theorem sorted_matches (found : List Match) :
    (sortWith compareMatches found).Pairwise fun left right => left.start ≤ right.start := by
  have hsorted : (sortWith compareMatches found).Pairwise fun left right =>
      (compareMatches left right).isLE = true := by
    apply pairwise_sortWith
    · intro left right
      rw [isLE_compareMatches_iff, isLE_compareMatches_iff]
      omega
    · intro first second third
      rw [isLE_compareMatches_iff, isLE_compareMatches_iff, isLE_compareMatches_iff]
      omega
  apply hsorted.imp
  intro left right hle
  rcases isLE_compareMatches_iff.mp hle with hlt | ⟨heq, _⟩
  · exact Nat.le_of_lt hlt
  · exact Nat.le_of_eq heq

/-- Where the occurrences of the patterns in the views come from. -/
def sensitiveSpans (patterns : List Bytes) (views : List (List SourcedByte)) : Set (Span Nat) :=
  { span | exists sourced, sourced ∈ views ∧ IsOccurrence patterns sourced span }

/-- The output is the source with one mask for every chain of the sensitive spans. -/
def RedactsExactly (patterns : List Bytes) (views : List (List SourcedByte))
    (source emitted : Bytes) : Prop :=
  exists chains, AreChains (sensitiveSpans patterns views) chains ∧
    emitted = maskChains source 0 chains

theorem redactsExactly_of_empty {patterns : List Bytes} {views : List (List SourcedByte)}
    (h : forall span, span ∉ sensitiveSpans patterns views) (source : Bytes) :
    RedactsExactly patterns views source source := by
  refine ⟨[], ⟨?_, ?_, List.Pairwise.nil⟩, rfl⟩
  · intro chain hchain
    cases hchain
  · intro span hspan
    exact absurd hspan (h span)

def patternRedactor (patterns : List Bytes) (bytesLeft : Nat) : ResponseRedactor :=
  { automaton := prepareAutomaton patterns
    maximum := maximumLength patterns
    decodingBytesLeft := bytesLeft }

theorem redact_patterns (patterns : List Bytes) {bytesLeft : Nat} {source : Bytes}
    (h : decodingCharge source ≤ bytesLeft) :
    exists emitted after, redact (patternRedactor patterns bytesLeft) source true 0 =
        Except.ok ({ emitted := emitted, remaining := [], covered := 0 }, after) ∧
      RedactsExactly patterns (bodyViews source) source emitted := by
  cases hmaximum : maximumLength patterns == 0 with
  | true =>
      refine ⟨source, patternRedactor patterns bytesLeft, ?_, ?_⟩
      · unfold redact patternRedactor
        dsimp only
        rw [hmaximum]
        rfl
      · apply redactsExactly_of_empty
        rintro span ⟨sourced, _, hfound⟩
        rcases hfound.found with ⟨front, occurrence, back, first, _, _, hpattern, hfirst, _⟩
        have hlength := length_le_maximumLength hpattern
        rw [eq_of_beq hmaximum, List.length_map] at hlength
        rw [List.length_eq_zero_iff.mp (Nat.le_zero.mp hlength)] at hfirst
        cases hfirst
  | false =>
      rcases viewsOf_spec h with ⟨views, hviews, hall⟩
      have hbounds : forall found, found ∈ sortWith compareMatches
          (views.flatMap (find (prepareAutomaton patterns))) ->
          found ∈ sensitiveSpans patterns (bodyViews source) ∧
            found.start < found.stop ∧ found.stop ≤ source.length := by
        intro found hfound
        rcases List.mem_flatMap.mp (mem_sortWith.mp hfound) with ⟨view, hview, hmem⟩
        rcases hall.reads view hview with ⟨sourced, hsourced, hreads⟩
        rcases mem_find.mp hmem with ⟨read, hread, hmatch⟩
        have hoccurs := isOccurrence_of_isMatch hreads hread hmatch
        exact ⟨⟨sourced, hsourced, hoccurs⟩, hoccurs.bounds (isSourced_bodyViews hsourced)⟩
      refine ⟨_, { patternRedactor patterns bytesLeft with
        decodingBytesLeft := bytesLeft - decodingCharge source }, ?_,
        chainsOf (sortWith compareMatches (views.flatMap (find (prepareAutomaton patterns)))),
        ?_, rfl⟩
      · unfold redact patternRedactor
        dsimp only
        rw [hmaximum, if_neg (by simp)]
        show (viewsOf bytesLeft source >>= _) = _
        rw [hviews]
        show Except.ok _ = _
        simp only [emittedEnd, if_pos]
        rw [maskMatches_chainsOf fun found hfound => (hbounds found hfound).right]
        rw [List.drop_length, Nat.sub_self]
      · have hchains := areChains_chainsOf
          (sorted_matches (views.flatMap (find (prepareAutomaton patterns))))
          fun found hfound => (hbounds found hfound).right.left
        apply hchains.of_within
        · exact fun found hfound => (hbounds found hfound).left
        · rintro span ⟨sourced, hsourced, hoccurs⟩
          rcases hall.covered sourced hsourced with ⟨view, hview, hreads⟩
          rcases exists_match_of_isOccurrence (isSourced_bodyViews hsourced) hreads hoccurs with
            ⟨found, hfound, hwithin⟩
          exact ⟨found, mem_sortWith.mpr (List.mem_flatMap.mpr ⟨view, hview, hfound⟩), hwithin⟩

/-!
## Redacting sensitive values
-/

/-- Redacting a whole body masks exactly what the sensitive values can be read from. -/
theorem redact_exact (values : List ScriptString) (rawByteLimit : Nat) {source : Bytes}
    (h : decodingCharge source ≤ (prepareResponseRedactor values rawByteLimit).decodingBytesLeft) :
    exists emitted after, redact (prepareResponseRedactor values rawByteLimit) source true 0 =
        Except.ok ({ emitted := emitted, remaining := [], covered := 0 }, after) ∧
      RedactsExactly (prepareSensitiveBytePatterns values) (bodyViews source) source emitted :=
  redact_patterns (prepareSensitiveBytePatterns values) h

def charBytes (text : String) : Bytes :=
  utf8Bytes (scriptString text)

theorem redact_exact_sample :
    decodingCharge (charBytes "a \\u006bey, %6Bey") ≤
        (prepareResponseRedactor [scriptString "key"] 131072).decodingBytesLeft ∧
      exists emitted after,
        redact (prepareResponseRedactor [scriptString "key"] 131072)
            (charBytes "a \\u006bey, %6Bey") true 0 =
          Except.ok ({ emitted := emitted, remaining := [], covered := 0 }, after) ∧
        RedactsExactly (prepareSensitiveBytePatterns [scriptString "key"])
          (bodyViews (charBytes "a \\u006bey, %6Bey")) (charBytes "a \\u006bey, %6Bey")
          emitted := by
  have hcharge : decodingCharge (charBytes "a \\u006bey, %6Bey") ≤
      (prepareResponseRedactor [scriptString "key"] 131072).decodingBytesLeft := by
    decide +kernel
  exact ⟨hcharge, redact_exact [scriptString "key"] 131072 hcharge⟩

/-!
## Plus signs

The views read a plus sign as a space, and only next to percent signs.
-/

/-- An escape of two hexadecimal digits, and no other. -/
def percentTriplet (text : Bytes) : Option EscapeToken :=
  if text.head? = some 0x2B then none else percentEscape text

def decodedViews (escape : Bytes -> Option EscapeToken) (source : Bytes) :
    List (List SourcedByte) :=
  jsonLayers source ++ (jsonLayers source).map (decodeSourced escape)

theorem mem_maskChains {source : Bytes} {written : Nat} {chains : List (Span Nat)}
    (h : chains ≠ []) : 0x5B ∈ maskChains source written chains := by
  cases chains with
  | nil => exact absurd rfl h
  | cons chain rest =>
      have hmask : 0x5B ∈ mask := by decide
      exact List.mem_append_left _ (List.mem_append_right _ hmask)

def emittedBody (result : Except SecureHttpError (RedactedPart × ResponseRedactor)) :
    Option Bytes :=
  result.toOption.map fun redacted => redacted.fst.emitted

theorem not_redacted_of_kept {values : List ScriptString} {rawByteLimit : Nat} {source : Bytes}
    {views : List (List SourcedByte)} {span : Span Nat}
    (hkept : emittedBody (redact (prepareResponseRedactor values rawByteLimit) source true 0) =
      some source)
    (hspan : span ∈ sensitiveSpans (prepareSensitiveBytePatterns values) views)
    (hsource : 0x5B ∉ source) :
    ¬ exists emitted after, redact (prepareResponseRedactor values rawByteLimit) source true 0 =
        Except.ok ({ emitted := emitted, remaining := [], covered := 0 }, after) ∧
      RedactsExactly (prepareSensitiveBytePatterns values) views source emitted := by
  rintro ⟨emitted, after, hredact, chains, hchains, hmasked⟩
  rw [hredact] at hkept
  have hsame : emitted = source := Option.some.inj hkept
  rw [hsame] at hmasked
  rcases hchains.covered span hspan with ⟨chain, hchain, _⟩
  have hmask : 0x5B ∈ maskChains source 0 chains := mem_maskChains (List.ne_nil_of_mem hchain)
  rw [← hmasked] at hmask
  exact hsource hmask

theorem mem_sensitiveSpans_of_view {patterns : List Bytes} {views : List (List SourcedByte)}
    {sourced : List SourcedByte} {first last : SourcedByte} (hview : sourced ∈ views)
    (hpattern : sourced.map SourcedByte.byte ∈ patterns) (hfirst : sourced.head? = some first)
    (hlast : sourced.getLast? = some last) :
    { start := first.start, stop := last.stop } ∈ sensitiveSpans patterns views := by
  refine ⟨sourced, hview, ⟨[], sourced, [], first, last, ?_, hpattern, hfirst, hlast, rfl⟩⟩
  rw [List.nil_append, List.append_nil]

/--
Neither reading only the escapes of two digits nor reading every plus sign as a
space gives the views that are searched.
-/
theorem plus_signs_kept :
    (decodingCharge (charBytes "+%2F") ≤
        (prepareResponseRedactor [scriptString "+/"] 131072).decodingBytesLeft ∧
      ¬ exists emitted after,
        redact (prepareResponseRedactor [scriptString "+/"] 131072) (charBytes "+%2F") true 0 =
          Except.ok ({ emitted := emitted, remaining := [], covered := 0 }, after) ∧
        RedactsExactly (prepareSensitiveBytePatterns [scriptString "+/"])
          (decodedViews percentTriplet (charBytes "+%2F")) (charBytes "+%2F") emitted) ∧
      decodingCharge (charBytes "+/") ≤
        (prepareResponseRedactor [scriptString " /"] 131072).decodingBytesLeft ∧
      ¬ exists emitted after,
        redact (prepareResponseRedactor [scriptString " /"] 131072) (charBytes "+/") true 0 =
          Except.ok ({ emitted := emitted, remaining := [], covered := 0 }, after) ∧
        RedactsExactly (prepareSensitiveBytePatterns [scriptString " /"])
          (decodedViews percentEscape (charBytes "+/")) (charBytes "+/") emitted := by
  refine ⟨⟨by decide +kernel, ?_⟩, by decide +kernel, ?_⟩
  · have hview : [{ byte := 0x2B, start := 0, stop := 1 },
      { byte := 0x2F, start := 1, stop := 4 }] ∈
        decodedViews percentTriplet (charBytes "+%2F") := by
      decide +kernel
    apply not_redacted_of_kept (by decide +kernel) _ (by decide +kernel)
    · exact { start := 0, stop := 4 }
    · exact mem_sensitiveSpans_of_view hview (by decide +kernel) rfl rfl
  · have hview : [{ byte := 0x20, start := 0, stop := 1 },
      { byte := 0x2F, start := 1, stop := 2 }] ∈
        decodedViews percentEscape (charBytes "+/") := by
      decide +kernel
    apply not_redacted_of_kept (by decide +kernel) _ (by decide +kernel)
    · exact { start := 0, stop := 2 }
    · exact mem_sensitiveSpans_of_view hview (by decide +kernel) rfl rfl

end Redaction
end Pertexo
