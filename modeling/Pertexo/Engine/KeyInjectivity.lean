import Mathlib.Data.Set.Basic
import Pertexo.Engine.InvocationKeys

/-!
# Injectivity of invocation keys

## Joined texts

The parts of a path are joined before they are encoded, so a key tells the
joined texts apart, and the parts only as far as the joined texts do.
-/

namespace Pertexo
namespace Engine

open Values

def joinedText (parts : List String) : String :=
  "/".intercalate parts

theorem toList_joinedText (parts : List String) :
    (joinedText parts).toList = ['/'].intercalate (parts.map String.toList) := by
  rw [joinedText, String.toList_intercalate]
  rfl

/-- Parts without the separator are read back from their joined text. -/
theorem joinedText_injective {left right : List String}
    (hleft : forall part, part ∈ left -> '/' ∉ part.toList ∧ part ≠ "")
    (hright : forall part, part ∈ right -> '/' ∉ part.toList ∧ part ≠ "")
    (h : joinedText left = joinedText right) : left = right := by
  have hsplit : forall parts : List String, parts ≠ [] ->
      (forall part, part ∈ parts -> '/' ∉ part.toList ∧ part ≠ "") ->
      (joinedText parts).toList.splitOn '/' = parts.map String.toList := by
    intro parts hparts hfree
    rw [toList_joinedText]
    apply List.splitOn_intercalate
    · intro chars hchars
      rcases List.mem_map.mp hchars with ⟨part, hpart, rfl⟩
      exact (hfree part hpart).left
    · intro hnil
      exact hparts (List.map_eq_nil_iff.mp hnil)
  have hempty : forall parts : List String,
      (forall part, part ∈ parts -> '/' ∉ part.toList ∧ part ≠ "") ->
      joinedText parts = joinedText [] -> parts = [] := by
    intro parts hfree hjoined
    by_contra hparts
    have hpieces := hsplit parts hparts hfree
    rw [hjoined] at hpieces
    have hsingle : parts.map String.toList = [[]] := hpieces.symm
    rcases List.map_eq_singleton_iff.mp hsingle with ⟨part, rfl, hpart⟩
    exact (hfree part (List.mem_singleton_self part)).right (String.toList_eq_nil_iff.mp hpart)
  cases left with
  | nil => exact (hempty right hright h.symm).symm
  | cons head rest =>
      cases right with
      | nil => exact hempty _ hleft h
      | cons other others =>
          have hpieces := hsplit _ (List.cons_ne_nil other others) hright
          rw [← h, hsplit _ (List.cons_ne_nil head rest) hleft] at hpieces
          exact List.map_injective_iff.mpr (fun _ _ => String.toList_injective) hpieces

/-- The key of a step tells the step and the joined texts of its paths, and no more. -/
theorem rawInvocationKey_eq_iff {workflowVersionId nodeId nodeId' : String}
    {branchPath branchPath' : List String} {iterationPath iterationPath' : IterationPath} :
    rawInvocationKey workflowVersionId nodeId branchPath iterationPath =
        rawInvocationKey workflowVersionId nodeId' branchPath' iterationPath' ↔
      nodeId = nodeId' ∧ joinedText branchPath = joinedText branchPath' ∧
        joinedText (encodedIterationPath iterationPath) =
          joinedText (encodedIterationPath iterationPath') := by
  constructor
  · exact texts_of_rawInvocationKey
  · rintro ⟨rfl, hbranch, hiteration⟩
    rw [joinedText, joinedText] at hbranch hiteration
    rw [rawInvocationKey, rawInvocationKey, hbranch, hiteration]

/-!
## Steps in their scopes
-/

structure ScopedStep where
  nodeId : String
  branchPath : BranchPath
  iterationPath : IterationPath
deriving DecidableEq, Repr

namespace ScopedStep

def key (workflowVersionId : String) (step : ScopedStep) : EngineResult String :=
  scopedInvocationKey workflowVersionId step.nodeId (some step.branchPath)
    (some step.iterationPath)

def branchText (step : ScopedStep) : String :=
  joinedText (encodedBranchPath step.branchPath)

def iterationText (step : ScopedStep) : String :=
  joinedText (encodedIterationPath step.iterationPath)

def identifiers (step : ScopedStep) : List String :=
  step.nodeId ::
    (step.branchPath.flatMap (fun part => [part.nodeId, part.outputPort]) ++
      step.iterationPath.map IterationScopePart.loopNodeId)

end ScopedStep

def identifierLength : Nat := 64

/-- What the schema of a graph admits as an identifier. -/
def isIdentifier (text : String) : Bool :=
  text != "" && utf16Length text <= identifierLength

/-- The identifiers of the step are admitted and written in the given characters. -/
def ScopedStep.IsOver (characters : Set Char) (step : ScopedStep) : Prop :=
  forall text, text ∈ step.identifiers ->
    isIdentifier text = true ∧ forall c, c ∈ text.toList -> c ∈ characters

theorem key_eq_raw {workflowVersionId : String} {step : ScopedStep} {key : String}
    (h : step.key workflowVersionId = Except.ok key) :
    key = rawInvocationKey workflowVersionId step.nodeId (encodedBranchPath step.branchPath)
      step.iterationPath := by
  unfold ScopedStep.key at h
  have hraw := rawInvocationKey_of_scopedInvocationKey h
  rw [Option.getD_some, Option.getD_some] at hraw
  exact hraw

theorem scopedKey_eq_iff {workflowVersionId : String} {step step' : ScopedStep} {key key' : String}
    (h : step.key workflowVersionId = Except.ok key)
    (h' : step'.key workflowVersionId = Except.ok key') :
    key = key' ↔ step.nodeId = step'.nodeId ∧ step.branchText = step'.branchText ∧
      step.iterationText = step'.iterationText := by
  rw [key_eq_raw h, key_eq_raw h', rawInvocationKey_eq_iff]
  rfl

/-!
## Identifiers without separators
-/

theorem eq_of_separated {left right left' right' : String} (hleft : ':' ∉ left.toList)
    (hleft' : ':' ∉ left'.toList) (h : left ++ ":" ++ right = left' ++ ":" ++ right') :
    left = left' ∧ right = right' := by
  have htext := congrArg String.toList h
  rw [String.toList_append, String.toList_append, String.toList_append, String.toList_append,
    List.append_assoc, List.append_assoc] at htext
  rcases eq_of_append_separator hleft hleft' htext with ⟨hfirst, hsecond⟩
  exact ⟨String.toList_injective hfirst, String.toList_injective hsecond⟩

theorem separated_free {left right : String} (hleft : '/' ∉ left.toList)
    (hright : '/' ∉ right.toList) :
    '/' ∉ (left ++ ":" ++ right).toList ∧ left ++ ":" ++ right ≠ "" := by
  constructor
  · rw [String.toList_append, String.toList_append, List.append_assoc]
    intro hmem
    rcases List.mem_append.mp hmem with hfirst | hrest
    · exact hleft hfirst
    · rcases List.mem_append.mp hrest with hcolon | hsecond
      · exact absurd hcolon (by decide)
      · exact hright hsecond
  · intro hempty
    have htext := congrArg String.toList hempty
    rw [String.toList_append, String.toList_append, List.append_assoc] at htext
    have hnil : (":".toList ++ right.toList) = [] := (List.append_eq_nil_iff.mp htext).right
    cases hnil

theorem encodedBranchPath_injective :
    forall {path path' : BranchPath}, (forall part, part ∈ path -> ':' ∉ part.nodeId.toList) ->
      (forall part, part ∈ path' -> ':' ∉ part.nodeId.toList) ->
      encodedBranchPath path = encodedBranchPath path' -> path = path'
  | [], [], _, _, _ => rfl
  | [], _ :: _, _, _, h => by
      cases h
  | _ :: _, [], _, _, h => by
      cases h
  | part :: rest, part' :: rest', hpath, hpath', h => by
      injection h with hhead htail
      rcases eq_of_separated (hpath _ (List.mem_cons_self ..)) (hpath' _ (List.mem_cons_self ..))
        hhead with ⟨hnode, hport⟩
      have hrest : rest = rest' := encodedBranchPath_injective
        (fun other hother => hpath other (List.mem_cons_of_mem _ hother))
        (fun other hother => hpath' other (List.mem_cons_of_mem _ hother)) htail
      cases part
      cases part'
      dsimp only at hnode hport
      rw [hnode, hport, hrest]

theorem loops_of_encodedIterationPath :
    forall {path path' : IterationPath},
      (forall part, part ∈ path -> ':' ∉ part.loopNodeId.toList) ->
      (forall part, part ∈ path' -> ':' ∉ part.loopNodeId.toList) ->
      encodedIterationPath path = encodedIterationPath path' ->
      path.map IterationScopePart.loopNodeId = path'.map IterationScopePart.loopNodeId
  | [], [], _, _, _ => rfl
  | [], _ :: _, _, _, h => by
      cases h
  | _ :: _, [], _, _, h => by
      cases h
  | part :: rest, part' :: rest', hpath, hpath', h => by
      injection h with hhead htail
      rw [List.map_cons, List.map_cons,
        (eq_of_separated (hpath _ (List.mem_cons_self ..)) (hpath' _ (List.mem_cons_self ..))
          hhead).left,
        loops_of_encodedIterationPath
          (fun other hother => hpath other (List.mem_cons_of_mem _ hother))
          (fun other hother => hpath' other (List.mem_cons_of_mem _ hother)) htail]

theorem eq_of_same_texts {characters : Set Char} (hcolon : ':' ∉ characters)
    (hslash : '/' ∉ characters) {step step' : ScopedStep} (h : step.IsOver characters)
    (h' : step'.IsOver characters) (hnode : step.nodeId = step'.nodeId)
    (hbranch : step.branchText = step'.branchText)
    (hiteration : step.iterationText = step'.iterationText) : step = step' := by
  have hfree : forall {c : Char}, c ∉ characters -> forall {step : ScopedStep},
      step.IsOver characters -> forall text, text ∈ step.identifiers -> c ∉ text.toList :=
    fun hc _ hover text htext hmem => hc ((hover text htext).right _ hmem)
  have hports : forall {step : ScopedStep} {part : BranchScopePart}, part ∈ step.branchPath ->
      part.nodeId ∈ step.identifiers ∧ part.outputPort ∈ step.identifiers := by
    intro step part hpart
    constructor
    · apply List.mem_cons_of_mem
      exact List.mem_append_left _ (List.mem_flatMap.mpr ⟨part, hpart, List.mem_cons_self ..⟩)
    · apply List.mem_cons_of_mem
      exact List.mem_append_left _
        (List.mem_flatMap.mpr ⟨part, hpart, List.mem_cons_of_mem _ (List.mem_singleton_self _)⟩)
  have hloops : forall {step : ScopedStep} {part : IterationScopePart},
      part ∈ step.iterationPath -> part.loopNodeId ∈ step.identifiers := by
    intro step part hpart
    apply List.mem_cons_of_mem
    exact List.mem_append_right _ (List.mem_map_of_mem hpart)
  have hbranchFree : forall {step : ScopedStep}, step.IsOver characters ->
      forall text, text ∈ encodedBranchPath step.branchPath -> '/' ∉ text.toList ∧ text ≠ "" := by
    intro step hover text htext
    rcases List.mem_map.mp htext with ⟨part, hpart, rfl⟩
    exact separated_free (hfree hslash hover _ (hports hpart).left)
      (hfree hslash hover _ (hports hpart).right)
  have hiterationFree : forall {step : ScopedStep}, step.IsOver characters ->
      forall text, text ∈ encodedIterationPath step.iterationPath ->
        '/' ∉ text.toList ∧ text ≠ "" := by
    intro step hover text htext
    rcases List.mem_map.mp htext with ⟨part, hpart, rfl⟩
    exact separated_free (hfree hslash hover _ (hloops hpart)) (slash_not_mem_toString_nat _)
  have hbranches := joinedText_injective (hbranchFree h) (hbranchFree h') hbranch
  have hiterations := joinedText_injective (hiterationFree h) (hiterationFree h') hiteration
  have hbranchPath : step.branchPath = step'.branchPath :=
    encodedBranchPath_injective (fun _ hpart => hfree hcolon h _ (hports hpart).left)
      (fun _ hpart => hfree hcolon h' _ (hports hpart).left) hbranches
  have hiterationPath : step.iterationPath = step'.iterationPath := by
    apply encodedIterationPath_injective _ hiteration
    exact loops_of_encodedIterationPath (fun _ hpart => hfree hcolon h _ (hloops hpart))
      (fun _ hpart => hfree hcolon h' _ (hloops hpart)) hiterations
  cases step
  cases step'
  simp only at hnode hbranchPath hiterationPath
  rw [hnode, hbranchPath, hiterationPath]

/-!
## Reading the ordinal of an iteration

The ordinal stands behind the last marker of the key, after the text of the
enclosing iterations and of the loop.
-/

def iterationMarker : List Char := ['|', 'i', ':']

def afterLast (marker : List Char) : List Char -> Option (List Char)
  | [] => none
  | c :: rest =>
      match afterLast marker rest with
      | some found => some found
      | none =>
          if marker.isPrefixOf (c :: rest) then some ((c :: rest).drop marker.length) else none

/-- The pattern of a written ordinal: no leading zero, and nine digits at most. -/
def isOrdinalText : List Char -> Bool
  | [] => false
  | c :: rest =>
      (c == '0' && rest.isEmpty) ||
        ('1' <= c && c <= '9' && rest.all Char.isDigit && rest.length <= 8)

def iterationHead (loopNodeId : String) (iterationPath : IterationPath) : String :=
  encodeURIComponent
    ("/".intercalate (encodedIterationPath iterationPath ++ [loopNodeId ++ ":"]))

def loopIterationOrdinal (key loopNodeId : String) (iterationPath : IterationPath) : Option Nat :=
  match afterLast iterationMarker key.toList with
  | none => none
  | some iterations =>
      let head := (iterationHead loopNodeId iterationPath).toList
      if !head.isPrefixOf iterations then none
      else
        let ordinal := iterations.drop head.length
        if isOrdinalText ordinal then some (Nat.ofDigitChars 10 ordinal 0) else none

theorem afterLast_eq_none {marker text : List Char} (hfree : '|' ∉ text) :
    afterLast ('|' :: marker) text = none := by
  induction text with
  | nil => rfl
  | cons c rest ih =>
      rw [afterLast, ih (fun hmem => hfree (List.mem_cons_of_mem _ hmem))]
      have hhead : ('|' == c) = false := by
        rw [beq_eq_false_iff_ne]
        intro heq
        exact hfree (heq ▸ List.mem_cons_self ..)
      rw [List.isPrefixOf, hhead, Bool.false_and]
      rfl

theorem afterLast_append (before : List Char) {text : List Char} (hfree : '|' ∉ text) :
    afterLast iterationMarker (before ++ '|' :: 'i' :: ':' :: text) = some text := by
  induction before with
  | nil =>
      have hrest : '|' ∉ 'i' :: ':' :: text := by
        intro hmem
        rcases List.mem_cons.mp hmem with heq | hmem
        · exact absurd heq (by decide)
        · rcases List.mem_cons.mp hmem with heq | hmem
          · exact absurd heq (by decide)
          · exact hfree hmem
      rw [List.nil_append, iterationMarker, afterLast, afterLast_eq_none hrest]
      simp [List.isPrefixOf]
  | cons c rest ih =>
      rw [List.cons_append, afterLast, ih]

/-- The digits of an ordinal are a written ordinal up to nine of them. -/
theorem isOrdinalText_toDigits (n : Nat) :
    isOrdinalText (Nat.toDigits 10 n) = true ↔ n < 1000000000 := by
  cases n with
  | zero => decide
  | succ m =>
      rcases leading_toDigits (Nat.succ_pos m) with ⟨c, rest, hdigits, hlow, hhigh⟩
      have hzero : (c == '0') = false := by
        rw [beq_eq_false_iff_ne]
        rintro rfl
        exact absurd hlow (by decide)
      have hrest : rest.all Char.isDigit = true := by
        rw [List.all_eq_true]
        intro d hd
        apply Nat.isDigit_of_mem_toDigits (by decide : 0 < 10) (by decide)
        rw [hdigits]
        exact List.mem_cons_of_mem _ hd
      have hlength : rest.length ≤ 8 ↔ m + 1 < 10 ^ 9 := by
        rw [← Nat.length_toDigits_le_iff (by decide) (by decide), hdigits, List.length_cons]
        exact (Nat.add_le_add_iff_right (n := 1)).symm
      rw [hdigits, isOrdinalText, hzero, hrest, decide_eq_true hlow, decide_eq_true hhigh]
      simpa using hlength

theorem encodeURIComponent_append (left right : String) :
    encodeURIComponent (left ++ right) = encodeURIComponent left ++ encodeURIComponent right := by
  apply String.toList_injective
  rw [String.toList_append, toList_encodeURIComponent, toList_encodeURIComponent,
    toList_encodeURIComponent, String.toList_append, List.flatMap_append]

theorem encodeURIComponent_toString (n : Nat) : encodeURIComponent (toString n) = toString n := by
  apply String.toList_injective
  rw [toList_encodeURIComponent, toList_toString_nat]
  have hdigits : forall c, c ∈ Nat.toDigits 10 n -> encodeURIChar c = [c] := by
    intro c hc
    have hdigit : c.isDigit = true := Nat.isDigit_of_mem_toDigits (by decide) (by decide) hc
    rw [encodeURIChar, if_pos]
    rw [isUnreserved, Char.isAlphanum, hdigit, Bool.or_true, Bool.true_or]
  have hall : forall chars : List Char, (forall c, c ∈ chars -> encodeURIChar c = [c]) ->
      chars.flatMap encodeURIChar = chars := by
    intro chars hchars
    induction chars with
    | nil => rfl
    | cons c rest ih =>
        rw [List.flatMap_cons, hchars c (List.mem_cons_self ..),
          ih fun d hd => hchars d (List.mem_cons_of_mem _ hd)]
        rfl
  exact hall _ hdigits

theorem encoded_iterations (loopNodeId : String) (ordinal : Nat) (enclosing : IterationPath) :
    encodeURIComponent
        ("/".intercalate (encodedIterationPath (enclosing ++ [⟨loopNodeId, ordinal⟩]))) =
      iterationHead loopNodeId enclosing ++ toString ordinal := by
  have hjoined : "/".intercalate (encodedIterationPath (enclosing ++ [⟨loopNodeId, ordinal⟩])) =
      "/".intercalate (encodedIterationPath enclosing ++ [loopNodeId ++ ":"]) ++
        toString ordinal := by
    rw [encodedIterationPath, encodedIterationPath, List.map_append, List.map_singleton]
    cases hpath : enclosing.map fun part : IterationScopePart =>
        part.loopNodeId ++ ":" ++ toString part.ordinal with
    | nil => simp
    | cons head rest =>
        rw [String.intercalate_append_of_ne_nil (List.cons_ne_nil head rest)
            (List.cons_ne_nil _ _),
          String.intercalate_append_of_ne_nil (List.cons_ne_nil head rest)
            (List.cons_ne_nil _ _)]
        simp [String.append_assoc]
  rw [hjoined, encodeURIComponent_append, encodeURIComponent_toString]
  rfl

/-- The ordinal is read back from the key as long as it has nine digits at most. -/
theorem loopIterationOrdinal_key {workflowVersionId nodeId key loopNodeId : String}
    {branchPath : BranchPath} {enclosing : IterationPath} {ordinal : Nat}
    (h :
      ScopedStep.key workflowVersionId ⟨nodeId, branchPath, enclosing ++ [⟨loopNodeId, ordinal⟩]⟩ =
      Except.ok key) :
    loopIterationOrdinal key loopNodeId enclosing = some ordinal ↔ ordinal < 1000000000 := by
  have hkey : exists before, key.toList = before ++ '|' :: 'i' :: ':' ::
      (iterationHead loopNodeId enclosing ++ toString ordinal).toList := by
    rw [key_eq_raw h, toList_rawInvocationKey, encoded_iterations]
    refine ⟨(encodeURIComponent workflowVersionId).toList ++ '|' ::
      ((encodeURIComponent nodeId).toList ++ '|' :: 'b' :: ':' ::
        (encodeURIComponent ("/".intercalate (encodedBranchPath branchPath))).toList), ?_⟩
    simp
  rcases hkey with ⟨before, htext⟩
  have hfree : '|' ∉ (iterationHead loopNodeId enclosing ++ toString ordinal).toList := by
    rw [← encoded_iterations]
    exact bar_not_mem_encodeURIComponent _
  rw [loopIterationOrdinal, htext, afterLast_append before hfree]
  dsimp only
  rw [String.toList_append, toList_toString_nat, List.drop_left,
    List.isPrefixOf_iff_prefix.mpr (List.prefix_append ..), Bool.not_true,
    Nat.ofDigitChars_ten_toDigits]
  rw [← isOrdinalText_toDigits]
  cases isOrdinalText (Nat.toDigits 10 ordinal) with
  | true => simp
  | false => simp

/-!
## Where keys collide
-/

/-- The same text from two branches, and the same text from two iterations. -/
structure Collides (step step' : ScopedStep) : Prop where
  nodeId : step.nodeId = step'.nodeId
  branch : step.branchText = step'.branchText
  iteration : step.iterationText = step'.iterationText
  different : step ≠ step'

/-- All steps over the characters have their own keys. -/
def KeysAreInjective (characters : Set Char) : Prop :=
  forall workflowVersionId step step' key,
    ScopedStep.IsOver characters step -> ScopedStep.IsOver characters step' ->
    step.key workflowVersionId = Except.ok key -> step'.key workflowVersionId = Except.ok key ->
    step = step'

def sampleVersion : String := "00000000-0000-4000-8000-000000000001"

def colonStep (nodeId outputPort : String) : ScopedStep :=
  { nodeId := ":"
    branchPath := [{ nodeId := nodeId, outputPort := outputPort }]
    iterationPath := [] }

def slashStep (outputPort nodeId : String) : ScopedStep :=
  { nodeId := "/"
    branchPath :=
      [{ nodeId := "/", outputPort := outputPort }, { nodeId := nodeId, outputPort := "/" }]
    iterationPath := [] }

theorem isOver_of_all {characters : Set Char} {c : Char} {step : ScopedStep}
    (hc : c ∈ characters)
    (hall : step.identifiers.all (fun text => isIdentifier text && text.toList.all (· == c)) =
      true) :
    step.IsOver characters := by
  intro text htext
  have htrue := List.all_eq_true.mp hall text htext
  rw [Bool.and_eq_true, List.all_eq_true] at htrue
  refine ⟨htrue.left, ?_⟩
  intro d hd
  rw [beq_iff_eq.mp (htrue.right d hd)]
  exact hc

theorem separators_of_injective {characters : Set Char} (h : KeysAreInjective characters) :
    ':' ∉ characters ∧ '/' ∉ characters := by
  constructor
  · intro hcolon
    have hkeys : exists key, (colonStep "::" ":").key sampleVersion = Except.ok key ∧
        (colonStep ":" "::").key sampleVersion = Except.ok key :=
      ⟨_, rfl, by decide⟩
    rcases hkeys with ⟨key, hfirst, hsecond⟩
    have hsame := h _ _ _ _ (isOver_of_all hcolon (by decide))
      (isOver_of_all hcolon (by decide)) hfirst hsecond
    exact absurd hsame (by decide)
  · intro hslash
    have hkeys : exists key, (slashStep "//" "/").key sampleVersion = Except.ok key ∧
        (slashStep "/" "//").key sampleVersion = Except.ok key :=
      ⟨_, rfl, by decide⟩
    rcases hkeys with ⟨key, hfirst, hsecond⟩
    have hsame := h _ _ _ _ (isOver_of_all hslash (by decide))
      (isOver_of_all hslash (by decide)) hfirst hsecond
    exact absurd hsame (by decide)

/-- Two steps share a key exactly where they collide, which takes a separator in an identifier;
ordinals are read back up to nine digits. -/
theorem invocation_keys (workflowVersionId : String) :
    (forall step step' key key',
      ScopedStep.key workflowVersionId step = Except.ok key ->
      ScopedStep.key workflowVersionId step' = Except.ok key' ->
      ((step ≠ step' -> key ≠ key') ↔ ¬ Collides step step')) ∧
      (forall characters, KeysAreInjective characters ↔ ':' ∉ characters ∧ '/' ∉ characters) ∧
      forall nodeId branchPath enclosing loopNodeId ordinal key,
        ScopedStep.key workflowVersionId
            ⟨nodeId, branchPath, enclosing ++ [⟨loopNodeId, ordinal⟩]⟩ = Except.ok key ->
          (loopIterationOrdinal key loopNodeId enclosing = some ordinal ↔
            ordinal < 1000000000) := by
  refine ⟨?_, ?_, ?_⟩
  · intro step step' key key' h h'
    constructor
    · intro hkeys hcollides
      apply hkeys hcollides.different
      exact (scopedKey_eq_iff h h').mpr
        ⟨hcollides.nodeId, hcollides.branch, hcollides.iteration⟩
    · intro hcollides hdifferent hsame
      rcases (scopedKey_eq_iff h h').mp hsame with ⟨hnode, hbranch, hiteration⟩
      exact hcollides ⟨hnode, hbranch, hiteration, hdifferent⟩
  · intro characters
    constructor
    · exact separators_of_injective
    · rintro ⟨hcolon, hslash⟩ workflowVersionId step step' key hover hover' h h'
      rcases (scopedKey_eq_iff h h').mp rfl with ⟨hnode, hbranch, hiteration⟩
      exact eq_of_same_texts hcolon hslash hover hover' hnode hbranch hiteration
  · intro nodeId branchPath enclosing loopNodeId ordinal key h
    exact loopIterationOrdinal_key h

def nestedBranches : ScopedStep :=
  { nodeId := "notify"
    branchPath :=
      [{ nodeId := "a", outputPort := "true" }, { nodeId := "b", outputPort := "false" }]
    iterationPath := [] }

def separatedBranch : ScopedStep :=
  { nodeId := "notify"
    branchPath := [{ nodeId := "a:true/b", outputPort := "false" }]
    iterationPath := [] }

/-- The branch of a step called `a:true/b` has the key of two nested branches. -/
theorem branch_key_collision :
    separatedBranch ≠ nestedBranches ∧
      (separatedBranch.identifiers ++ nestedBranches.identifiers).all isIdentifier = true ∧
      exists key, separatedBranch.key sampleVersion = Except.ok key ∧
        nestedBranches.key sampleVersion = Except.ok key :=
  ⟨by decide, by decide, _, rfl, by decide +kernel⟩

/-- Other step names have other keys, and the second pass of a loop is read back. -/
theorem invocation_keys_sample :
    exists key key',
      nestedBranches.key sampleVersion = Except.ok key ∧
        { nestedBranches with nodeId := "each", iterationPath := [⟨"loop", 1⟩] }.key
          sampleVersion = Except.ok key' ∧
        key ≠ key' ∧ loopIterationOrdinal key' "loop" [] = some 1 := by
  refine ⟨_, _, rfl, rfl, ?_, ?_⟩
  · apply ((invocation_keys sampleVersion).left nestedBranches
      { nestedBranches with nodeId := "each", iterationPath := [⟨"loop", 1⟩] } _ _ rfl rfl).mpr
    · intro hcollides
      exact absurd hcollides.nodeId (by decide)
    · decide
  · exact ((invocation_keys sampleVersion).right.right "each" nestedBranches.branchPath [] "loop" 1
      _ rfl).mpr (by decide)

end Engine
end Pertexo
