import Mathlib.Logic.Function.Basic
import Pertexo.Library.LongestSuffix
import Pertexo.Redaction.DecodedBody

/-!
# The automaton of the patterns

## States

A state is named by the bytes that lead to it, and its edges by their bytes. A
state that no pattern has led to yet is a new one.
-/

namespace Pertexo
namespace Redaction

open Library
open Values

structure MatchingState where
  edges : Bytes := []
  fallback : Bytes := []
  length : Nat := 0

structure MatchingAutomaton where
  stateAt : Bytes -> MatchingState

instance : CoeFun MatchingAutomaton fun _ => Bytes -> MatchingState :=
  ⟨MatchingAutomaton.stateAt⟩

def MatchingAutomaton.set (automaton : MatchingAutomaton) (path : Bytes) (state : MatchingState) :
    MatchingAutomaton :=
  { stateAt := Function.update automaton.stateAt path state }

@[simp] theorem set_self (automaton : MatchingAutomaton) (path : Bytes) (state : MatchingState) :
    automaton.set path state path = state :=
  Function.update_self ..

theorem set_of_ne {path other : Bytes} (h : other ≠ path) (automaton : MatchingAutomaton)
    (state : MatchingState) : automaton.set path state other = automaton other :=
  Function.update_of_ne h ..

def insertByte (progress : MatchingAutomaton × Bytes) (byte : UInt8) :
    MatchingAutomaton × Bytes :=
  let (automaton, state) := progress
  if (automaton state).edges.contains byte then (automaton, state ++ [byte])
  else
    (automaton.set state
      { automaton state with edges := (automaton state).edges ++ [byte] },
      state ++ [byte])

def insertPattern (automaton : MatchingAutomaton) (pattern : Bytes) : MatchingAutomaton :=
  let (automaton, state) := pattern.foldl insertByte (automaton, [])
  automaton.set state
    { automaton state with length := max (automaton state).length pattern.length }

def insertPatterns (patterns : List Bytes) : MatchingAutomaton :=
  patterns.foldl insertPattern { stateAt := fun _ => {} }

/-!
## Fallbacks

The queue of the states to link holds one level of the automaton after the
other, and every level is made of the children of the one before it.
-/

def nextState (automaton : MatchingAutomaton) (state : Bytes) (byte : UInt8) : Bytes :=
  advanceState (fun state => (automaton state).fallback) (fun state => (automaton state).edges)
    state byte

def linkChild (parent : Bytes) (automaton : MatchingAutomaton) (byte : UInt8) :
    MatchingAutomaton :=
  let child := parent ++ [byte]
  let target := nextState automaton (automaton parent).fallback byte
  automaton.set child
    { automaton child with
      fallback := target
      length := max (automaton child).length (automaton target).length }

def linkChildren (automaton : MatchingAutomaton) (parent : Bytes) : MatchingAutomaton :=
  (automaton parent).edges.foldl (linkChild parent) automaton

def childrenOf (automaton : MatchingAutomaton) (level : List Bytes) : List Bytes :=
  level.flatMap fun parent => (automaton parent).edges.map fun byte => parent ++ [byte]

def linkLevels : Nat -> List Bytes -> MatchingAutomaton -> MatchingAutomaton
  | 0, _, automaton => automaton
  | depth + 1, level, automaton =>
      linkLevels depth (childrenOf automaton level) (level.foldl linkChildren automaton)

def maximumLength (patterns : List Bytes) : Nat :=
  patterns.foldl (fun maximum pattern => max maximum pattern.length) 0

def prepareAutomaton (patterns : List Bytes) : MatchingAutomaton :=
  let automaton := insertPatterns patterns
  linkLevels (maximumLength patterns) (childrenOf automaton [[]]) automaton

/-!
## The states are the prefixes of the patterns
-/

def prefixesOf (patterns : List Bytes) : Set Bytes :=
  { path | path = [] ∨ exists pattern, pattern ∈ patterns ∧ path <+: pattern }

def patternSet (patterns : List Bytes) : Set Bytes :=
  { pattern | pattern ∈ patterns }

theorem patternSet_subset (patterns : List Bytes) : patternSet patterns ⊆ prefixesOf patterns :=
  fun pattern hmem => Or.inr ⟨pattern, hmem, List.prefix_refl pattern⟩

theorem mem_prefixesOf_concat {patterns : List Bytes} {path : Bytes} {byte : UInt8} :
    path ++ [byte] ∈ prefixesOf patterns ↔
      exists pattern, pattern ∈ patterns ∧ path ++ [byte] <+: pattern := by
  constructor
  · rintro (hnil | hpattern)
    · simp at hnil
    · exact hpattern
  · exact Or.inr

theorem mem_prefixesOf_of_concat {patterns : List Bytes} {path : Bytes} {byte : UInt8}
    (h : path ++ [byte] ∈ prefixesOf patterns) : path ∈ prefixesOf patterns := by
  rcases mem_prefixesOf_concat.mp h with ⟨pattern, hmem, hprefixed⟩
  exact Or.inr ⟨pattern, hmem, (List.prefix_append path [byte]).trans hprefixed⟩

/-- The length of a state that is a pattern, before its fallback counts. -/
def HasOwnLength (patterns : List Bytes) (path : Bytes) (length : Nat) : Prop :=
  (path ∈ patternSet patterns ∧ length = path.length) ∨
    (path ∉ patternSet patterns ∧ length = 0)

structure IsTrie (patterns : List Bytes) (automaton : MatchingAutomaton) : Prop where
  edges : forall path byte,
    byte ∈ (automaton path).edges ↔ path ++ [byte] ∈ prefixesOf patterns
  fallback : forall path, (automaton path).fallback = []
  length : forall path, HasOwnLength patterns path (automaton path).length

theorem IsTrie.hasEdges {patterns : List Bytes} {automaton : MatchingAutomaton}
    (h : IsTrie patterns automaton) :
    HasEdges (prefixesOf patterns) fun state => (automaton state).edges where
  nil := Or.inl rfl
  mem_edges := h.edges
  closed := fun _ _ => mem_prefixesOf_of_concat

structure InsertsPath (before : MatchingAutomaton) (path : Bytes)
    (progress : MatchingAutomaton × Bytes) : Prop where
  state : progress.snd = path
  edges : forall state byte, byte ∈ (progress.fst state).edges ↔
    byte ∈ (before state).edges ∨ state ++ [byte] <+: path
  fallback : forall state, (progress.fst state).fallback = (before state).fallback
  length : forall state, (progress.fst state).length = (before state).length

theorem insertsPath_nil (automaton : MatchingAutomaton) :
    InsertsPath automaton [] (automaton, []) where
  state := rfl
  edges := by
    intro state byte
    constructor
    · exact Or.inl
    · rintro (hedge | hprefixed)
      · exact hedge
      · simp at hprefixed
  fallback := fun _ => rfl
  length := fun _ => rfl

theorem concat_prefix_concat_iff {state path : Bytes} {a b : UInt8} :
    state ++ [a] <+: path ++ [b] ↔ (state = path ∧ a = b) ∨ state ++ [a] <+: path := by
  rw [List.prefix_concat_iff]
  constructor
  · rintro (heq | hprefixed)
    · rcases List.append_inj' heq rfl with ⟨hstate, hbyte⟩
      exact Or.inl ⟨hstate, List.singleton_inj.mp hbyte⟩
    · exact Or.inr hprefixed
  · rintro (⟨rfl, rfl⟩ | hprefixed)
    · exact Or.inl rfl
    · exact Or.inr hprefixed

theorem InsertsPath.step {before : MatchingAutomaton} {path : Bytes}
    {progress : MatchingAutomaton × Bytes} (h : InsertsPath before path progress) (byte : UInt8) :
    InsertsPath before (path ++ [byte]) (insertByte progress byte) := by
  rcases progress with ⟨automaton, state⟩
  have hstate : state = path := h.state
  subst hstate
  have hedges := h.edges
  dsimp only at hedges
  unfold insertByte
  dsimp only
  split
  · next hcontains =>
    rw [List.contains_iff_mem] at hcontains
    refine ⟨rfl, ?_, h.fallback, h.length⟩
    intro other b
    rw [concat_prefix_concat_iff, hedges]
    constructor
    · rintro (hedge | hprefixed)
      · exact Or.inl hedge
      · exact Or.inr (Or.inr hprefixed)
    · rintro (hedge | ⟨rfl, rfl⟩ | hprefixed)
      · exact Or.inl hedge
      · exact (hedges _ _).mp hcontains
      · exact Or.inr hprefixed
  · next hmissing =>
    refine ⟨rfl, ?_, ?_, ?_⟩
    · intro other b
      dsimp only
      rw [concat_prefix_concat_iff]
      by_cases hother : other = state
      · rw [hother, set_self, List.mem_append, List.mem_singleton, hedges]
        tauto
      · rw [set_of_ne hother, hedges]
        tauto
    · intro other
      dsimp only
      by_cases hother : other = state
      · rw [hother, set_self]
        exact h.fallback state
      · rw [set_of_ne hother]
        exact h.fallback other
    · intro other
      dsimp only
      by_cases hother : other = state
      · rw [hother, set_self]
        exact h.length state
      · rw [set_of_ne hother]
        exact h.length other

theorem insertsPath_foldl (automaton : MatchingAutomaton) (pattern : Bytes) :
    InsertsPath automaton pattern (pattern.foldl insertByte (automaton, [])) := by
  induction pattern using List.reverseRecOn with
  | nil => exact insertsPath_nil automaton
  | append_singleton path byte ih =>
      rw [List.foldl_append]
      exact ih.step byte

theorem IsTrie.insertPattern {patterns : List Bytes} {automaton : MatchingAutomaton}
    (h : IsTrie patterns automaton) (pattern : Bytes) :
    IsTrie (patterns ++ [pattern]) (insertPattern automaton pattern) := by
  have hinserted := insertsPath_foldl automaton pattern
  unfold Redaction.insertPattern
  generalize pattern.foldl insertByte (automaton, []) = progress at hinserted
  rcases progress with ⟨inserted, state⟩
  have hstate : state = pattern := hinserted.state
  subst hstate
  have hedges : forall path byte, byte ∈ (inserted path).edges ↔
      path ++ [byte] ∈ prefixesOf (patterns ++ [state]) := by
    intro path byte
    have hedge := hinserted.edges path byte
    dsimp only at hedge
    rw [hedge, h.edges, mem_prefixesOf_concat, mem_prefixesOf_concat]
    constructor
    · rintro (⟨known, hmem, hprefixed⟩ | hprefixed)
      · exact ⟨known, List.mem_append_left _ hmem, hprefixed⟩
      · exact ⟨state, List.mem_append_right _ (List.mem_singleton_self state), hprefixed⟩
    · rintro ⟨known, hmem, hprefixed⟩
      rcases List.mem_append.mp hmem with hold | hnew
      · exact Or.inl ⟨known, hold, hprefixed⟩
      · rw [List.mem_singleton.mp hnew] at hprefixed
        exact Or.inr hprefixed
  dsimp only
  constructor
  · intro path byte
    by_cases hpath : path = state
    · rw [hpath, set_self]
      exact hedges state byte
    · rw [set_of_ne hpath]
      exact hedges path byte
  · intro path
    by_cases hpath : path = state
    · rw [hpath, set_self]
      exact (hinserted.fallback state).trans (h.fallback state)
    · rw [set_of_ne hpath]
      exact (hinserted.fallback path).trans (h.fallback path)
  · intro path
    by_cases hpath : path = state
    · rw [hpath, set_self]
      refine Or.inl ⟨List.mem_append_right _ (List.mem_singleton_self state), ?_⟩
      have hlength : (inserted state).length = (automaton state).length :=
        hinserted.length state
      have hown : (automaton state).length ≤ state.length := by
        rcases h.length state with ⟨_, hlength⟩ | ⟨_, hzero⟩
        · exact hlength.le
        · rw [hzero]
          exact Nat.zero_le _
      show max (inserted state).length state.length = state.length
      rw [hlength]
      exact max_eq_right hown
    · rw [set_of_ne hpath]
      have hlength : (inserted path).length = (automaton path).length := hinserted.length path
      rw [hlength]
      have hsame : path ∈ patternSet (patterns ++ [state]) ↔ path ∈ patternSet patterns := by
        show path ∈ patterns ++ [state] ↔ path ∈ patterns
        rw [List.mem_append, List.mem_singleton]
        exact or_iff_left hpath
      unfold HasOwnLength
      rw [hsame]
      exact h.length path

theorem isTrie_insertPatterns (patterns : List Bytes) :
    IsTrie patterns (insertPatterns patterns) := by
  induction patterns using List.reverseRecOn with
  | nil =>
      constructor
      · intro path byte
        rw [mem_prefixesOf_concat]
        constructor
        · intro hedge
          cases hedge
        · rintro ⟨_, hmem, _⟩
          cases hmem
      · exact fun _ => rfl
      · intro path
        refine Or.inr ⟨?_, rfl⟩
        intro hmem
        cases hmem
  | append_singleton patterns pattern ih =>
      rw [insertPatterns, List.foldl_append]
      exact ih.insertPattern pattern

end Redaction
end Pertexo
