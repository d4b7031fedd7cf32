import Pertexo.Redaction.PatternAutomaton

/-!
# Fallbacks of the pattern automaton

## One child

Linking a child reads only states that are not longer than its parent, and all
of them are linked by then.
-/

namespace Pertexo
namespace Redaction

open Library
open Values

variable {patterns : List Bytes} {automaton : MatchingAutomaton} {depth : Nat}

structure IsLinkedState (patterns : List Bytes) (automaton : MatchingAutomaton) (first : UInt8)
    (rest : Bytes) : Prop where
  fallback : IsLongestSuffix (prefixesOf patterns) rest (automaton (first :: rest)).fallback
  length : IsLongestPattern (patternSet patterns) (first :: rest)
    (automaton (first :: rest)).length

/-- The states up to a depth are linked; a longer one is as the trie has it, or linked. -/
structure LinkedTo (patterns : List Bytes) (depth : Nat) (automaton : MatchingAutomaton) :
    Prop where
  edges : HasEdges (prefixesOf patterns) fun state => (automaton state).edges
  root : (automaton []).length = 0
  linked : forall first rest, first :: rest ∈ prefixesOf patterns -> rest.length < depth ->
    IsLinkedState patterns automaton first rest
  later : forall first rest, first :: rest ∈ prefixesOf patterns -> depth ≤ rest.length ->
    HasOwnLength patterns (first :: rest) (automaton (first :: rest)).length ∨
      IsLinkedState patterns automaton first rest

theorem LinkedTo.hasFallbacks (h : LinkedTo patterns depth automaton) :
    HasFallbacks (prefixesOf patterns) (fun state => (automaton state).fallback) depth :=
  fun first rest hmem hlt => (h.linked first rest hmem hlt).fallback

theorem LinkedTo.length_spec (h : LinkedTo patterns depth automaton) {state : Bytes}
    (hmem : state ∈ prefixesOf patterns) (hle : state.length ≤ depth) :
    IsLongestPattern (patternSet patterns) state (automaton state).length := by
  cases state with
  | nil =>
      rw [h.root]
      exact isLongestPattern_nil
  | cons first rest => exact (h.linked first rest hmem hle).length

theorem IsTrie.linkedTo (h : IsTrie patterns automaton) (hempty : (automaton []).length = 0) :
    LinkedTo patterns 1 automaton where
  edges := h.hasEdges
  root := hempty
  linked := by
    intro first rest hmem hlt
    rw [List.length_eq_zero_iff.mp (Nat.lt_one_iff.mp hlt)] at hmem ⊢
    have hsuffix : IsLongestSuffix (prefixesOf patterns) [] ([] : Bytes) :=
      IsLongestSuffix.self (Or.inl rfl)
    constructor
    · rw [h.fallback]
      exact hsuffix
    · have hlength := isLongestPattern_nil.of_fallback hsuffix (patternSet_subset patterns)
        (h.length [first])
      rw [Nat.max_zero] at hlength
      exact hlength
  later := fun first rest _ _ => Or.inl (h.length (first :: rest))

theorem IsLinkedState.of_eq {after : MatchingAutomaton} {first : UInt8} {rest : Bytes}
    (h : IsLinkedState patterns automaton first rest)
    (hsame : after (first :: rest) = automaton (first :: rest)) :
    IsLinkedState patterns after first rest := by
  constructor
  · rw [hsame]
    exact h.fallback
  · rw [hsame]
    exact h.length

structure Links (patterns : List Bytes) (depth : Nat) (before after : MatchingAutomaton) :
    Prop where
  edges : forall state, (after state).edges = (before state).edges
  root : after [] = before []
  states : forall first rest, after (first :: rest) = before (first :: rest) ∨
    (rest.length = depth ∧ IsLinkedState patterns after first rest)

theorem Links.kept {before after : MatchingAutomaton} (h : Links patterns depth before after)
    {first : UInt8} {rest : Bytes} (hlinked : IsLinkedState patterns before first rest) :
    IsLinkedState patterns after first rest := by
  rcases h.states first rest with hsame | ⟨_, hnow⟩
  · exact hlinked.of_eq hsame
  · exact hnow

theorem Links.refl (patterns : List Bytes) (depth : Nat) (automaton : MatchingAutomaton) :
    Links patterns depth automaton automaton :=
  ⟨fun _ => rfl, rfl, fun _ _ => Or.inl rfl⟩

theorem Links.trans {first second third : MatchingAutomaton} (h : Links patterns depth first second)
    (h' : Links patterns depth second third) : Links patterns depth first third where
  edges := fun state => (h'.edges state).trans (h.edges state)
  root := h'.root.trans h.root
  states := by
    intro byte rest
    rcases h'.states byte rest with hsame | hlinked
    · rcases h.states byte rest with hbefore | ⟨hdepth, hlinked⟩
      · exact Or.inl (hsame.trans hbefore)
      · exact Or.inr ⟨hdepth, hlinked.of_eq hsame⟩
    · exact Or.inr hlinked

theorem nextState_spec (h : LinkedTo patterns depth automaton) {word state : Bytes}
    (hstate : IsLongestSuffix (prefixesOf patterns) word state) (hle : state.length ≤ depth)
    (byte : UInt8) :
    IsLongestSuffix (prefixesOf patterns) (word ++ [byte]) (nextState automaton state byte) :=
  advanceState_spec h.edges h.hasFallbacks hstate hle byte

theorem linkChild_spec (h : LinkedTo patterns depth automaton) {first : UInt8} {rest : Bytes}
    (hdepth : rest.length + 1 = depth) {byte : UInt8}
    (hchild : first :: rest ++ [byte] ∈ prefixesOf patterns) :
    IsLinkedState patterns (linkChild (first :: rest) automaton byte) first (rest ++ [byte]) := by
  have hparent : first :: rest ∈ prefixesOf patterns := mem_prefixesOf_of_concat hchild
  have hlt : rest.length < depth := hdepth ▸ Nat.lt_succ_self _
  have hfallback := (h.linked first rest hparent hlt).fallback
  have htarget := nextState_spec h hfallback
    (hfallback.suffix.length_le.trans (Nat.le_of_lt hlt)) byte
  have hshort := htarget.suffix.length_le
  rw [List.length_append, List.length_singleton, hdepth] at hshort
  have hlength := h.length_spec htarget.mem hshort
  have hstate : linkChild (first :: rest) automaton byte (first :: (rest ++ [byte])) =
      { automaton (first :: (rest ++ [byte])) with
        fallback := nextState automaton (automaton (first :: rest)).fallback byte
        length := max (automaton (first :: (rest ++ [byte]))).length
          (automaton (nextState automaton (automaton (first :: rest)).fallback byte)).length } := by
    unfold linkChild
    exact set_self _ _ _
  have hlater : depth ≤ (rest ++ [byte]).length := by
    rw [List.length_append, List.length_singleton, hdepth]
  constructor
  · rw [hstate]
    exact htarget
  · rw [hstate]
    show IsLongestPattern _ _ (max _ _)
    rcases h.later first (rest ++ [byte]) hchild hlater with hown | hlinked
    · exact hlength.of_fallback htarget (patternSet_subset patterns) hown
    · have hbound : (automaton (nextState automaton
          (automaton (first :: rest)).fallback byte)).length ≤
          (automaton (first :: (rest ++ [byte]))).length := by
        apply hlinked.length.right
        have hrest := hlength.of_suffix htarget (patternSet_subset patterns)
        rcases hrest.left with hzero | ⟨pattern, hmem, hsuffix, hsame⟩
        · exact Or.inl hzero
        · exact Or.inr ⟨pattern, hmem, hsuffix.trans (List.suffix_cons _ _), hsame⟩
      rw [max_eq_left hbound]
      exact hlinked.length

theorem links_linkChild (h : LinkedTo patterns depth automaton) {first : UInt8} {rest : Bytes}
    (hdepth : rest.length + 1 = depth) {byte : UInt8}
    (hchild : first :: rest ++ [byte] ∈ prefixesOf patterns) :
    Links patterns depth automaton (linkChild (first :: rest) automaton byte) where
  edges := by
    intro state
    unfold linkChild
    dsimp only
    by_cases hstate : state = first :: rest ++ [byte]
    · rw [hstate, set_self]
    · rw [set_of_ne hstate]
  root := by
    unfold linkChild
    apply set_of_ne
    simp
  states := by
    intro a others
    by_cases hstate : a :: others = first :: rest ++ [byte]
    · rcases List.cons_eq_cons.mp hstate with ⟨rfl, rfl⟩
      refine Or.inr ⟨?_, linkChild_spec h hdepth hchild⟩
      show (rest ++ [byte]).length = depth
      rw [List.length_append, List.length_singleton, hdepth]
    · apply Or.inl
      unfold linkChild
      exact set_of_ne hstate _ _

theorem LinkedTo.of_links {after : MatchingAutomaton} (h : LinkedTo patterns depth automaton)
    (hlinks : Links patterns depth automaton after) : LinkedTo patterns depth after where
  edges := by
    have hedges : (fun state => (after state).edges) = fun state => (automaton state).edges :=
      funext hlinks.edges
    rw [hedges]
    exact h.edges
  root := by
    rw [hlinks.root]
    exact h.root
  linked := fun first rest hmem hlt => hlinks.kept (h.linked first rest hmem hlt)
  later := by
    intro first rest hmem hle
    rcases hlinks.states first rest with hsame | ⟨_, hlinked⟩
    · rcases h.later first rest hmem hle with hown | hlinked
      · rw [hsame]
        exact Or.inl hown
      · exact Or.inr (hlinked.of_eq hsame)
    · exact Or.inr hlinked

/-!
## One level
-/

def LinksChildren (patterns : List Bytes) (automaton : MatchingAutomaton) (parent : Bytes)
    (bytes : List UInt8) : Prop :=
  forall byte, byte ∈ bytes -> forall first rest, parent ++ [byte] = first :: rest ->
    IsLinkedState patterns automaton first rest

theorem LinksChildren.of_links {before after : MatchingAutomaton} {parent : Bytes}
    {bytes : List UInt8} (h : LinksChildren patterns before parent bytes)
    (hlinks : Links patterns depth before after) : LinksChildren patterns after parent bytes :=
  fun byte hbyte first rest hchild => hlinks.kept (h byte hbyte first rest hchild)

theorem links_foldl_linkChild {first : UInt8} {rest : Bytes} (hdepth : rest.length + 1 = depth)
    {bytes : List UInt8} (h : LinkedTo patterns depth automaton)
    (hbytes : forall byte, byte ∈ bytes -> first :: rest ++ [byte] ∈ prefixesOf patterns) :
    Links patterns depth automaton (bytes.foldl (linkChild (first :: rest)) automaton) ∧
      LinksChildren patterns (bytes.foldl (linkChild (first :: rest)) automaton) (first :: rest)
        bytes := by
  induction bytes generalizing automaton with
  | nil =>
      refine ⟨Links.refl patterns depth automaton, ?_⟩
      intro byte hbyte
      cases hbyte
  | cons byte bytes ih =>
      have hchild := hbytes byte (List.mem_cons_self ..)
      have hstep := links_linkChild h hdepth hchild
      rcases ih (h.of_links hstep)
          (fun other hother => hbytes other (List.mem_cons_of_mem _ hother))
        with ⟨hlinks, hlinked⟩
      refine ⟨hstep.trans hlinks, ?_⟩
      intro other hother a others hsame
      rcases List.mem_cons.mp hother with rfl | hlater
      · rcases List.cons_eq_cons.mp hsame with ⟨rfl, rfl⟩
        exact hlinks.kept (linkChild_spec h hdepth hchild)
      · exact hlinked other hlater a others hsame

theorem links_foldl_linkChildren {level : List Bytes} (h : LinkedTo patterns depth automaton)
    (hpos : 0 < depth) (hlevel : forall parent, parent ∈ level -> parent.length = depth) :
    Links patterns depth automaton (level.foldl linkChildren automaton) ∧
      forall parent, parent ∈ level ->
        LinksChildren patterns (level.foldl linkChildren automaton) parent
          (automaton parent).edges := by
  induction level generalizing automaton with
  | nil =>
      refine ⟨Links.refl patterns depth automaton, ?_⟩
      intro parent hparent
      cases hparent
  | cons parent level ih =>
      have hlength := hlevel parent (List.mem_cons_self ..)
      cases parent with
      | nil =>
          rw [← hlength] at hpos
          cases hpos
      | cons first rest =>
          have hbytes : forall byte, byte ∈ (automaton (first :: rest)).edges ->
              first :: rest ++ [byte] ∈ prefixesOf patterns :=
            fun byte hbyte => (h.edges.mem_edges _ byte).mp hbyte
          rcases links_foldl_linkChild hlength h hbytes with ⟨hstep, hchildren⟩
          have hnext := h.of_links hstep
          rcases ih hnext (fun other hother => hlevel other (List.mem_cons_of_mem _ hother)) with
            ⟨hlinks, hothers⟩
          refine ⟨hstep.trans hlinks, ?_⟩
          intro other hother
          rcases List.mem_cons.mp hother with rfl | hlater
          · exact hchildren.of_links hlinks
          · have hown := hothers other hlater
            rw [hstep.edges other] at hown
            exact hown

def IsLevel (patterns : List Bytes) (depth : Nat) (level : List Bytes) : Prop :=
  forall state, state ∈ level ↔ state ∈ prefixesOf patterns ∧ state.length = depth

theorem isLevel_childrenOf {level : List Bytes}
    (hedges : HasEdges (prefixesOf patterns) fun state => (automaton state).edges)
    (h : IsLevel patterns depth level) :
    IsLevel patterns (depth + 1) (childrenOf automaton level) := by
  intro state
  unfold childrenOf
  rw [List.mem_flatMap]
  constructor
  · rintro ⟨parent, hparent, hchild⟩
    rcases List.mem_map.mp hchild with ⟨byte, hbyte, rfl⟩
    refine ⟨(hedges.mem_edges parent byte).mp hbyte, ?_⟩
    rw [List.length_append, List.length_singleton, ((h parent).mp hparent).right]
  · rintro ⟨hmem, hlength⟩
    rcases List.eq_nil_or_concat state with rfl | ⟨parent, byte, rfl⟩
    · cases hlength
    · rw [List.concat_eq_append] at hmem hlength ⊢
      rw [List.length_append, List.length_singleton] at hlength
      refine ⟨parent, (h parent).mpr ⟨mem_prefixesOf_of_concat hmem, Nat.succ.inj hlength⟩, ?_⟩
      exact List.mem_map.mpr ⟨byte, (hedges.mem_edges parent byte).mpr hmem, rfl⟩

theorem isLevel_root (patterns : List Bytes) : IsLevel patterns 0 [[]] := by
  intro state
  rw [List.mem_singleton]
  constructor
  · rintro rfl
    exact ⟨Or.inl rfl, rfl⟩
  · exact fun h => List.length_eq_zero_iff.mp h.right

theorem LinkedTo.next {level : List Bytes} (h : LinkedTo patterns depth automaton)
    (hpos : 0 < depth) (hlevel : IsLevel patterns depth level) :
    LinkedTo patterns (depth + 1) (level.foldl linkChildren automaton) := by
  rcases links_foldl_linkChildren h hpos (fun parent hparent => ((hlevel parent).mp hparent).right)
    with ⟨hlinks, hchildren⟩
  have hnow := h.of_links hlinks
  refine ⟨hnow.edges, hnow.root, ?_, ?_⟩
  · intro first rest hmem hlt
    rcases Nat.lt_succ_iff_lt_or_eq.mp hlt with hshort | hlength
    · exact hnow.linked first rest hmem hshort
    · rcases List.eq_nil_or_concat rest with rfl | ⟨front, byte, rfl⟩
      · rw [← hlength] at hpos
        cases hpos
      · rw [List.concat_eq_append] at hmem hlength ⊢
        rw [← List.cons_append] at hmem
        rw [List.length_append, List.length_singleton] at hlength
        have hparent : first :: front ∈ level :=
          (hlevel _).mpr ⟨mem_prefixesOf_of_concat hmem, hlength⟩
        exact hchildren (first :: front) hparent byte ((h.edges.mem_edges _ byte).mpr hmem) first
          (front ++ [byte]) rfl
  · intro first rest hmem hle
    exact hnow.later first rest hmem (Nat.le_of_succ_le hle)

/-!
## All levels
-/

theorem linkedTo_linkLevels {levels : Nat} {level : List Bytes}
    (h : LinkedTo patterns depth automaton) (hpos : 0 < depth)
    (hlevel : IsLevel patterns depth level) :
    LinkedTo patterns (depth + levels) (linkLevels levels level automaton) := by
  induction levels generalizing depth level automaton with
  | zero => exact h
  | succ levels ih =>
      have hnext := h.next hpos hlevel
      have hchildren := isLevel_childrenOf h.edges hlevel
      have hall := ih hnext (Nat.succ_pos depth) hchildren
      rw [Nat.add_assoc, Nat.add_comm 1 levels] at hall
      exact hall

theorem length_le_maximumLength {pattern : Bytes} (h : pattern ∈ patterns) :
    pattern.length ≤ maximumLength patterns := by
  have hfold : forall (patterns : List Bytes) (start : Nat),
      start ≤ patterns.foldl (fun maximum pattern => max maximum pattern.length) start ∧
        forall pattern, pattern ∈ patterns ->
          pattern.length ≤
            patterns.foldl (fun maximum pattern => max maximum pattern.length) start := by
    intro patterns
    induction patterns with
    | nil =>
        intro start
        refine ⟨Nat.le_refl _, ?_⟩
        intro pattern hmem
        cases hmem
    | cons first rest ih =>
        intro start
        rcases ih (max start first.length) with ⟨hstart, hrest⟩
        refine ⟨(le_max_left _ _).trans hstart, ?_⟩
        intro pattern hmem
        rcases List.mem_cons.mp hmem with rfl | hlater
        · exact (le_max_right _ _).trans hstart
        · exact hrest pattern hlater
  exact (hfold patterns 0).right pattern h

theorem length_le_of_mem_prefixesOf {state : Bytes} (h : state ∈ prefixesOf patterns) :
    state.length ≤ maximumLength patterns := by
  rcases h with rfl | ⟨pattern, hmem, hprefixed⟩
  · exact Nat.zero_le _
  · exact hprefixed.length_le.trans (length_le_maximumLength hmem)

theorem linkedTo_prepareAutomaton (patterns : List Bytes) :
    LinkedTo patterns (1 + maximumLength patterns) (prepareAutomaton patterns) := by
  have htrie := isTrie_insertPatterns patterns
  have hempty : (insertPatterns patterns []).length = 0 := by
    rcases htrie.length [] with ⟨_, hlength⟩ | ⟨_, hzero⟩
    · exact hlength
    · exact hzero
  exact linkedTo_linkLevels (htrie.linkedTo hempty) Nat.one_pos
    (isLevel_childrenOf htrie.hasEdges (isLevel_root patterns))

/-!
## Reading bytes
-/

def stateAfter (automaton : MatchingAutomaton) (bytes : Bytes) : Bytes :=
  bytes.foldl (nextState automaton) []

/-- The state after some bytes is the longest of their suffixes among the states. -/
theorem stateAfter_spec (patterns : List Bytes) (bytes : Bytes) :
    IsLongestSuffix (prefixesOf patterns) bytes
      (stateAfter (prepareAutomaton patterns) bytes) := by
  have hlinked := linkedTo_prepareAutomaton patterns
  induction bytes using List.reverseRecOn with
  | nil => exact IsLongestSuffix.self (Or.inl rfl)
  | append_singleton bytes byte ih =>
      rw [stateAfter, List.foldl_append]
      refine nextState_spec hlinked ih ?_ byte
      exact (length_le_of_mem_prefixesOf ih.mem).trans (Nat.le_add_left _ _)

theorem length_stateAfter (patterns : List Bytes) (bytes : Bytes) :
    IsLongestPattern (patternSet patterns) bytes
      (prepareAutomaton patterns (stateAfter (prepareAutomaton patterns) bytes)).length := by
  have hstate := stateAfter_spec patterns bytes
  have hlength := (linkedTo_prepareAutomaton patterns).length_spec hstate.mem
    ((length_le_of_mem_prefixesOf hstate.mem).trans (Nat.le_add_left _ _))
  exact hlength.of_suffix hstate (patternSet_subset patterns)

end Redaction
end Pertexo
