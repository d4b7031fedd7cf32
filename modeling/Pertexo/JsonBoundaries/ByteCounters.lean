import Pertexo.JsonBoundaries.GraphAdmission

/-!
# The byte counters and the serializer

The walks of the engine and the inspection of graph input count the text that the serializer
writes, without writing it.
-/

namespace Pertexo
namespace JsonBoundaries

open Canonical
open Library
open Pagination
open PortableText
open Portability
open Values

/-!
## Facts of a graph are not about its size
-/

/-- A check that never fails for the size of the text. -/
def NeverForSize (result : Except AdmissionFailure Unit) : Prop :=
  forall failure, result = .error failure -> failure.code ≠ .graphLimit

theorem neverForSize_ok : NeverForSize (.ok ()) := by
  intro failure h
  cases h

theorem NeverForSize.bind {first : Except AdmissionFailure Unit}
    {rest : Unit -> Except AdmissionFailure Unit} (hfirst : NeverForSize first)
    (hrest : NeverForSize (rest ())) : NeverForSize (first >>= rest) := by
  cases first with
  | ok result => exact hrest
  | error failure => exact hfirst

theorem neverForSize_ite {condition : Prop} [Decidable condition]
    {first second : Except AdmissionFailure Unit} (hfirst : NeverForSize first)
    (hsecond : NeverForSize second) : NeverForSize (if condition then first else second) := by
  split
  · exact hfirst
  · exact hsecond

theorem neverForSize_forM {Item : Type} {check : Item -> Except AdmissionFailure Unit}
    (h : forall item, NeverForSize (check item)) (items : List Item) :
    NeverForSize (items.forM check) := by
  induction items with
  | nil => exact neverForSize_ok
  | cons item rest ih =>
      show NeverForSize (check item >>= fun _ => rest.forM check)
      exact (h item).bind ih

section

variable {Number : Type}

theorem neverForSize_valueDepth (maximum : Nat) (path : ScriptString) :
    NeverForSize (.error (valueDepthFailure maximum path)) := by
  intro failure h
  cases h
  exact AdmissionCode.noConfusion

theorem neverForSize_structuredDepth (limits : AdmissionLimits) (path : ScriptString)
    (depth : Nat) : NeverForSize (checkStructuredDepth limits path depth) := by
  apply neverForSize_ite
  · intro failure h
    cases h
    exact AdmissionCode.noConfusion
  · exact neverForSize_ok

mutual

theorem neverForSize_inspectDepth (maximum : Nat) :
    forall (value : GraphValue Number) (path : ScriptString) (depth : Nat),
      NeverForSize (inspectDepth maximum value path depth)
  | .array items, path, depth => by
      rw [inspectDepth]
      exact neverForSize_ite (neverForSize_valueDepth maximum path)
        (neverForSize_inspectItemDepths maximum items path 0 (depth + 1))
  | .object members, path, depth => by
      rw [inspectDepth]
      exact neverForSize_ite (neverForSize_valueDepth maximum path)
        (neverForSize_inspectMemberDepths maximum members path (depth + 1))
  | .null, path, depth => neverForSize_ite (neverForSize_valueDepth maximum path) neverForSize_ok
  | .bool _, path, depth =>
      neverForSize_ite (neverForSize_valueDepth maximum path) neverForSize_ok
  | .number _, path, depth =>
      neverForSize_ite (neverForSize_valueDepth maximum path) neverForSize_ok
  | .string _, path, depth =>
      neverForSize_ite (neverForSize_valueDepth maximum path) neverForSize_ok

theorem neverForSize_inspectItemDepths (maximum : Nat) :
    forall (items : List (GraphValue Number)) (path : ScriptString) (index depth : Nat),
      NeverForSize (inspectItemDepths maximum items path index depth)
  | [], _, _, _ => neverForSize_ok
  | item :: rest, path, index, depth =>
      (neverForSize_inspectDepth maximum item (itemPath path index) depth).bind
        (neverForSize_inspectItemDepths maximum rest path (index + 1) depth)

theorem neverForSize_inspectMemberDepths (maximum : Nat) :
    forall (members : GraphMembers Number) (path : ScriptString) (depth : Nat),
      NeverForSize (inspectMemberDepths maximum members path depth)
  | [], _, _ => neverForSize_ok
  | (name, value) :: rest, path, depth =>
      (neverForSize_inspectMemberDepths maximum rest path depth).bind
        (neverForSize_inspectDepth maximum value (memberPath path name) depth)

end

theorem neverForSize_literalDepth (limits : AdmissionLimits)
    (mapping : Option (GraphValue Number)) (path : ScriptString) :
    NeverForSize (literalDepthFailure limits mapping path) := by
  rw [literalDepthFailure.eq_def]
  split
  · split
    · exact neverForSize_ite (neverForSize_inspectDepth _ _ _ _) neverForSize_ok
    · exact neverForSize_ok
  · exact neverForSize_ok

theorem neverForSize_nodeRecord (limits : AdmissionLimits) (nodePath : ScriptString)
    (record : GraphMembers Number) :
    NeverForSize (inspectNodeRecord limits nodePath record) := by
  rw [inspectNodeRecord]
  split
  · apply (neverForSize_inspectDepth _ _ _ _).bind
    split
    · exact neverForSize_forM (fun _ => neverForSize_literalDepth _ _ _) _
    · exact neverForSize_ok
  · apply neverForSize_ok.bind
    split
    · exact neverForSize_forM (fun _ => neverForSize_literalDepth _ _ _) _
    · exact neverForSize_ok

theorem neverForSize_nodeRecords (limits : AdmissionLimits) (path : ScriptString)
    (nodes : List (GraphValue Number)) : NeverForSize (inspectNodeRecords limits path nodes) := by
  apply neverForSize_forM
  intro entry
  split
  · exact neverForSize_nodeRecord _ _ _
  · exact neverForSize_ok

theorem neverForSize_graphRecord (limits : AdmissionLimits) (path : ScriptString)
    (graph : GraphMembers Number) : NeverForSize (inspectGraphRecord limits path graph) := by
  rw [inspectGraphRecord]
  split
  · apply (neverForSize_literalDepth _ _ _).bind
    split
    · exact neverForSize_nodeRecords _ _ _
    · exact neverForSize_ok
  · apply neverForSize_ok.bind
    split
    · exact neverForSize_nodeRecords _ _ _
    · exact neverForSize_ok

mutual

theorem neverForSize_inspectGraphValue (limits : AdmissionLimits) :
    forall (value : GraphValue Number) (path : ScriptString) (depth : Nat),
      NeverForSize (inspectGraphValue limits value path depth)
  | .null, _, _ => neverForSize_ok
  | .object graph, path, depth => by
      rw [inspectGraphValue]
      apply (neverForSize_structuredDepth limits path depth).bind
      exact (neverForSize_graphRecord limits path graph).bind
        (neverForSize_inspectGraphBodies limits graph path depth)
  | .array _, path, depth => neverForSize_structuredDepth limits path depth
  | .bool _, path, depth => neverForSize_structuredDepth limits path depth
  | .number _, path, depth => neverForSize_structuredDepth limits path depth
  | .string _, path, depth => neverForSize_structuredDepth limits path depth

theorem neverForSize_inspectGraphBodies (limits : AdmissionLimits) :
    forall (members : GraphMembers Number) (path : ScriptString) (depth : Nat),
      NeverForSize (inspectGraphBodies limits members path depth)
  | [], _, _ => neverForSize_ok
  | (key, value) :: rest, path, depth => by
      rw [inspectGraphBodies]
      exact neverForSize_ite (neverForSize_inspectNodeList limits value path depth)
        (neverForSize_inspectGraphBodies limits rest path depth)

theorem neverForSize_inspectNodeList (limits : AdmissionLimits) :
    forall (value : GraphValue Number) (path : ScriptString) (depth : Nat),
      NeverForSize (inspectNodeList limits value path depth)
  | .array nodes, path, depth => neverForSize_inspectNodeBodies limits nodes path 0 depth
  | .null, _, _ => neverForSize_ok
  | .object _, _, _ => neverForSize_ok
  | .bool _, _, _ => neverForSize_ok
  | .number _, _, _ => neverForSize_ok
  | .string _, _, _ => neverForSize_ok

theorem neverForSize_inspectNodeBodies (limits : AdmissionLimits) :
    forall (nodes : List (GraphValue Number)) (path : ScriptString) (index depth : Nat),
      NeverForSize (inspectNodeBodies limits nodes path index depth)
  | [], _, _, _ => neverForSize_ok
  | node :: rest, path, index, depth =>
      (neverForSize_inspectNodeBodies limits rest path (index + 1) depth).bind
        (neverForSize_inspectNodeBody limits node _ depth)

theorem neverForSize_inspectNodeBody (limits : AdmissionLimits) :
    forall (value : GraphValue Number) (nodePath : ScriptString) (depth : Nat),
      NeverForSize (inspectNodeBody limits value nodePath depth)
  | .object record, nodePath, depth =>
      neverForSize_inspectStructuredMember limits record nodePath depth
  | .null, _, _ => neverForSize_ok
  | .array _, _, _ => neverForSize_ok
  | .bool _, _, _ => neverForSize_ok
  | .number _, _, _ => neverForSize_ok
  | .string _, _, _ => neverForSize_ok

theorem neverForSize_inspectStructuredMember (limits : AdmissionLimits) :
    forall (members : GraphMembers Number) (nodePath : ScriptString) (depth : Nat),
      NeverForSize (inspectStructuredMember limits members nodePath depth)
  | [], _, _ => neverForSize_ok
  | (key, value) :: rest, nodePath, depth => by
      rw [inspectStructuredMember]
      exact neverForSize_ite (neverForSize_inspectStructured limits value nodePath depth)
        (neverForSize_inspectStructuredMember limits rest nodePath depth)

theorem neverForSize_inspectStructured (limits : AdmissionLimits) :
    forall (value : GraphValue Number) (nodePath : ScriptString) (depth : Nat),
      NeverForSize (inspectStructured limits value nodePath depth)
  | .object structured, nodePath, depth =>
      neverForSize_inspectBodyMember limits structured nodePath depth
  | .null, _, _ => neverForSize_ok
  | .array _, _, _ => neverForSize_ok
  | .bool _, _, _ => neverForSize_ok
  | .number _, _, _ => neverForSize_ok
  | .string _, _, _ => neverForSize_ok

theorem neverForSize_inspectBodyMember (limits : AdmissionLimits) :
    forall (members : GraphMembers Number) (nodePath : ScriptString) (depth : Nat),
      NeverForSize (inspectBodyMember limits members nodePath depth)
  | [], nodePath, depth => neverForSize_structuredDepth limits _ (depth + 1)
  | (key, value) :: rest, nodePath, depth => by
      rw [inspectBodyMember]
      exact neverForSize_ite (neverForSize_inspectGraphValue limits value _ (depth + 1))
        (neverForSize_inspectBodyMember limits rest nodePath depth)

end

end

/-!
## Sizes of texts
-/

/-- A bounded inspection of a text: `OthersFit` are its other limits. -/
structure BoundsText {Failure State : Type} (bytes maximum : Nat) (OthersFit : Prop)
    (IsSizeFailure : Failure -> Prop) (result : Except Failure State) : Prop where
  accepts : (exists final, result = .ok final) ↔ bytes ≤ maximum ∧ OthersFit
  refusedOnlyBeyond : forall failure, result = .error failure -> IsSizeFailure failure ->
    maximum < bytes
  refusedBeyond : OthersFit -> maximum < bytes ->
    exists failure, result = .error failure ∧ IsSizeFailure failure

section

variable {limits : TotalLimits} {Failure State : Type} {kindOf : Failure -> Option LimitKind}

theorem Accounts.boundsText {total : Totals} {final : State} {result : Except Failure State}
    (h : Accounts limits kindOf total final result) {IsSizeFailure : Failure -> Prop}
    (hsize : forall failure, IsSizeFailure failure ↔ kindOf failure = some .bytes)
    {maximum : Nat} (hbytes : limits .bytes = some maximum) :
    BoundsText total.bytes maximum (forall kind, kind ≠ .bytes -> ¬ Exceeds limits kind total)
      IsSizeFailure result := by
  have hexact : Exceeds limits .bytes total ↔ maximum < total.bytes := by
    constructor
    · intro ⟨found, hfound, hexceeds⟩
      rw [hbytes] at hfound
      cases hfound
      exact hexceeds
    · intro hlarge
      exact ⟨maximum, hbytes, hlarge⟩
  constructor
  · constructor
    · intro ⟨found, hfound⟩
      have hwithin := (h.eq_ok_iff.mp hfound).left
      constructor
      · exact Nat.le_of_not_lt fun hlarge => hwithin .bytes (hexact.mpr hlarge)
      · exact fun kind _ => hwithin kind
    · intro ⟨hfits, hothers⟩
      refine ⟨final, h.eq_ok_iff.mpr ⟨?_, rfl⟩⟩
      intro kind
      by_cases hkind : kind = .bytes
      · rw [hkind, hexact]
        exact Nat.not_lt_of_le hfits
      · exact hothers kind hkind
  · intro failure herror hfailure
    rcases h.exceeds herror with ⟨kind, hkind, hexceeds⟩
    rw [(hsize failure).mp hfailure] at hkind
    cases hkind
    exact hexact.mp hexceeds
  · intro hothers hlarge
    rcases h with ⟨_, hwithin⟩ | ⟨failure, kind, herror, hkind, hexceeds⟩
    · exact absurd (hexact.mpr hlarge) (hwithin .bytes)
    · refine ⟨failure, herror, (hsize failure).mpr ?_⟩
      rw [hkind]
      by_contra hother
      exact hothers kind (fun hsame => hother (congrArg some hsame)) hexceeds

theorem BoundsText.congr {bytes maximum : Nat} {OthersFit Others : Prop}
    {IsSizeFailure : Failure -> Prop} {result : Except Failure State}
    (h : BoundsText bytes maximum OthersFit IsSizeFailure result) (hothers : OthersFit ↔ Others) :
    BoundsText bytes maximum Others IsSizeFailure result := by
  rw [← hothers]
  exact h

theorem BoundsText.bind_check {bytes maximum : Nat} {OthersFit : Prop}
    {IsSizeFailure : Failure -> Prop} {result : Except Failure State}
    (h : BoundsText bytes maximum OthersFit IsSizeFailure result) {final : State}
    (hfinal : forall found, result = .ok found -> found = final)
    (check : State -> Except Failure Unit)
    (hcheck : forall failure, check final = .error failure -> ¬ IsSizeFailure failure) :
    BoundsText bytes maximum (OthersFit ∧ check final = .ok ()) IsSizeFailure
      (result >>= fun found => check found >>= fun _ => .ok found) := by
  cases result with
  | error failure =>
      have hfits : ¬ (bytes ≤ maximum ∧ OthersFit) := by
        intro hfits
        rcases h.accepts.mpr hfits with ⟨_, hfound⟩
        cases hfound
      constructor
      · constructor
        · intro ⟨_, hfound⟩
          cases hfound
        · intro ⟨hbytes, hothers, _⟩
          exact absurd ⟨hbytes, hothers⟩ hfits
      · exact h.refusedOnlyBeyond
      · intro hothers hlarge
        exact h.refusedBeyond hothers.left hlarge
  | ok found =>
      rcases h.accepts.mp ⟨found, rfl⟩ with ⟨hbytes, hothers⟩
      rw [hfinal found rfl]
      show BoundsText _ _ _ _ (check final >>= fun _ => Except.ok final)
      cases hresult : check final with
      | error failure =>
          constructor
          · constructor
            · intro ⟨_, hfound⟩
              cases hfound
            · intro ⟨_, _, hok⟩
              cases hok
          · intro other herror hsize
            cases herror
            exact absurd hsize (hcheck failure hresult)
          · intro ⟨_, hok⟩
            cases hok
      | ok done =>
          constructor
          · constructor
            · intro _
              exact ⟨hbytes, hothers, rfl⟩
            · intro _
              exact ⟨final, rfl⟩
          · intro failure herror
            cases herror
          · intro _ hlarge
            exact absurd hbytes (Nat.not_le_of_lt hlarge)

end

section

variable {Number : Type} [DecimalNumber Number]

/-- A walk bounds the text, and besides it the depth and the members of the data. -/
theorem walk_boundsText {policy : WalkPolicy} (hfair : FairPolicy policy)
    {value : ProgramValue Number} {data : BoundedJsonValue Number}
    (hdata : value.json? = some data) (hacyclic : value.IsAcyclic []) :
    BoundsText (textBytes data) policy.bytes
      (data.depth ≤ policy.depth ∧ data.memberCount ≤ policy.members)
      (fun failure => failure = WalkFailure.bytes) (walk policy value) := by
  have hsize : forall failure : WalkFailure,
      failure = .bytes ↔ failure.kind = some .bytes := by
    intro failure
    cases failure <;> simp [WalkFailure.kind]
  have hdepth : (valueTotals 1 data).of .depth = data.depth := Nat.zero_add _
  apply ((walk_accounts hfair hdata hacyclic).boundsText hsize rfl).congr
  constructor
  · intro hothers
    constructor
    · apply Nat.le_of_not_lt
      intro hdeep
      exact hothers .depth (by decide) ⟨policy.depth, rfl, hdepth.symm ▸ hdeep⟩
    · apply Nat.le_of_not_lt
      intro hmany
      exact hothers .members (by decide) ⟨policy.members, rfl, hmany⟩
  · intro ⟨hfits, hfew⟩ kind hkind ⟨maximum, hlimit, hexceeds⟩
    cases kind with
    | bytes => exact hkind rfl
    | members =>
        cases hlimit
        exact absurd hfew (Nat.not_le_of_lt hexceeds)
    | depth =>
        cases hlimit
        rw [hdepth] at hexceeds
        exact absurd hfits (Nat.not_le_of_lt hexceeds)

theorem inspectWorkflowGraphAdmission_boundsText (limits : AdmissionLimits)
    (allowNonFiniteNumbers : Bool) {value : ProgramValue Number} {data : BoundedJsonValue Number}
    (hdata : value.json? = some data) (hacyclic : value.IsAcyclic []) :
    BoundsText (textBytes data) limits.graphBytes
      (1 + height data ≤ limits.inputDepth ∧
        inspectGraphValue limits value.snapshot rootPath 0 = .ok ())
      (fun failure => failure.code = .graphLimit)
      (inspectWorkflowGraphAdmission limits allowNonFiniteNumbers value) := by
  have hsize : forall failure : AdmissionFailure,
      failure.code = .graphLimit ↔ admissionKind failure = some .bytes := by
    intro failure
    rw [admissionKind]
    cases failure.code <;> simp
  have hdocument : Accounts (inputLimits limits) admissionKind (graphTotals 1 data)
      (value.snapshot, textBytes data)
      (inspectJsonDocument limits allowNonFiniteNumbers value) :=
    inspectDocument_accounts (Or.inl rfl) hdata hacyclic
  have hbounds := hdocument.boundsText hsize rfl
  have hfinal : forall found, inspectJsonDocument limits allowNonFiniteNumbers value = .ok found ->
      found = (value.snapshot, textBytes data) := fun found hfound =>
    (hdocument.eq_ok_iff.mp hfound).right
  have hfacts := neverForSize_inspectGraphValue limits value.snapshot rootPath 0
  have hchecked := hbounds.bind_check hfinal
    (fun found => inspectGraphValue limits found.fst rootPath 0) hfacts
  apply hchecked.congr
  apply and_congr_left
  intro _
  constructor
  · intro hothers
    apply Nat.le_of_not_lt
    intro hdeep
    exact hothers .depth (by decide) ⟨limits.inputDepth, rfl, hdeep⟩
  · intro hfits kind hkind ⟨maximum, hlimit, hexceeds⟩
    cases kind with
    | bytes => exact hkind rfl
    | members => cases hlimit
    | depth =>
        cases hlimit
        exact absurd hfits (Nat.not_le_of_lt hexceeds)

theorem inspectWorkflowGraphAdmission_bytes {limits : AdmissionLimits}
    {allowNonFiniteNumbers : Bool} {value : ProgramValue Number} {data : BoundedJsonValue Number}
    (hdata : value.json? = some data) (hacyclic : value.IsAcyclic []) {snapshot : GraphValue Number}
    {bytes : Nat}
    (h : inspectWorkflowGraphAdmission limits allowNonFiniteNumbers value = .ok (snapshot, bytes)) :
    snapshot = value.snapshot ∧ bytes = textBytes data := by
  rcases exists_of_bind_eq_ok h with ⟨found, hfound, hchecked⟩
  rcases exists_of_bind_eq_ok hchecked with ⟨_, _, hreturned⟩
  have hdocument : Accounts (inputLimits limits) admissionKind (graphTotals 1 data)
      (value.snapshot, textBytes data)
      (inspectJsonDocument limits allowNonFiniteNumbers value) :=
    inspectDocument_accounts (Or.inl rfl) hdata hacyclic
  rw [(hdocument.eq_ok_iff.mp hfound).right] at hreturned
  cases hreturned
  exact ⟨rfl, rfl⟩

/-- Every counter counts the text that the serializer writes, as far as its limits go. -/
theorem byteCounters_agree {value : ProgramValue Number} {data : BoundedJsonValue Number}
    (hdata : value.json? = some data) (hacyclic : value.IsAcyclic []) (bounds : JsonBounds)
    (limits : AdmissionLimits) (allowNonFiniteNumbers : Bool) :
    (BoundsText (textBytes data) 262144 (data.depth ≤ 64 ∧ data.memberCount ≤ 10000)
        (fun failure => failure = WalkFailure.bytes) (assertBoundedCheckpointJson value) ∧
      BoundsText (textBytes data) bounds.bytes
        (data.depth ≤ bounds.depth ∧ data.memberCount ≤ bounds.members)
        (fun failure => failure = WalkFailure.bytes) (assertSafeExecutableJson value bounds) ∧
      BoundsText (textBytes data) limits.graphBytes
        (1 + height data ≤ limits.inputDepth ∧
          inspectGraphValue limits value.snapshot rootPath 0 = .ok ())
        (fun failure => failure.code = .graphLimit)
        (inspectWorkflowGraphAdmission limits allowNonFiniteNumbers value)) ∧
    (forall snapshot bytes,
      inspectWorkflowGraphAdmission limits allowNonFiniteNumbers value = .ok (snapshot, bytes) ->
        bytes = textBytes data) ∧
    (data.Ordered -> textBytes (rebuilt true data) = textBytes data) ∧
    (forall text : ScriptString,
      jsonStringByteLength text none = Values.utf8ByteLength (quoteText text) ∧
        forall maximum, SameWithin maximum (jsonStringByteLength text (some maximum))
          (Values.utf8ByteLength (quoteText text))) ∧
    (forall other : ProgramValue Number,
      assertBoundedCheckpointJson other = walk (wholePolicy checkpointPolicy) other ∧
        assertSafeExecutableJson other bounds = walk (wholePolicy (executablePolicy bounds)) other ∧
          inspectJsonDocument limits allowNonFiniteNumbers other =
            inspectDocument (fun _ => none) limits allowNonFiniteNumbers other) := by
  refine ⟨⟨?_, ?_, ?_⟩, ?_, ?_, ?_, ?_⟩
  · exact walk_boundsText fair_checkpointPolicy hdata hacyclic
  · exact walk_boundsText (fair_executablePolicy bounds) hdata hacyclic
  · exact inspectWorkflowGraphAdmission_boundsText limits allowNonFiniteNumbers hdata hacyclic
  · intro snapshot bytes h
    exact (inspectWorkflowGraphAdmission_bytes hdata hacyclic h).right
  · intro hordered
    exact (sameSize_rebuilt data hordered).bytes
  · intro text
    refine ⟨jsonStringByteLength_none text, ?_⟩
    intro maximum
    rw [← jsonStringByteLength_none]
    exact jsonStringByteLength_sameWithin text maximum
  · intro other
    exact ⟨walk_whole fair_checkpointPolicy other, walk_whole (fair_executablePolicy bounds) other,
      inspectDocument_whole (Or.inl rfl) other⟩

end

/-- A list with a lone surrogate and an object with one empty list. -/
def sampleValue : ProgramValue Nat :=
  .array 0 false 0 0 [(true, .data (.string [0xd800])),
    (true, .data (.object 1 true false 0 [(scriptString "a", .data (.array 2 false 0 0 []))]))]

def sampleData : BoundedJsonValue Nat :=
  .array [.string [0xd800], .object [(scriptString "a", .array [])]]

theorem byteCounters_agree_sample :
    textBytes sampleData = 19 ∧
      (exists final, assertBoundedCheckpointJson sampleValue = .ok final) ∧
      (exists failure,
        assertSafeExecutableJson sampleValue { bytes := 18, depth := 3, members := 3 } =
          .error failure ∧ failure = .bytes) := by
  have hdata : sampleValue.json? = some sampleData := by rfl
  have hacyclic : sampleValue.IsAcyclic [] := by
    simp [sampleValue, ProgramValue.IsAcyclic, AreAcyclicItems, AreAcyclicMembers]
  have hbytes : textBytes sampleData = 19 := by decide
  have hagree := byteCounters_agree hdata hacyclic { bytes := 18, depth := 3, members := 3 }
    { graphBytes := 18, inputDepth := 4, jsonValueDepth := 64, structuredDepth := 32 } false
  refine ⟨hbytes, hagree.left.left.accepts.mpr ⟨?_, ?_⟩,
    hagree.left.right.left.refusedBeyond ?_ ?_⟩
  · rw [hbytes]
    decide
  · decide
  · decide
  · rw [hbytes]
    decide

/-!
A value may exceed two limits at once. It is refused for the one that the walk meets first.
-/

def nestedValue : ProgramValue Nat :=
  .array 0 false 0 0 [(true, .data (.array 1 false 0 0 []))]

theorem nested_refused_for_depth :
    nestedValue.json? = some (.array [.array []]) ∧ nestedValue.IsAcyclic [] ∧
      ¬ (assertSafeExecutableJson nestedValue { bytes := 3, depth := 1, members := 10 } =
          .error .bytes ↔
        3 < textBytes (.array [.array []] : BoundedJsonValue Nat)) := by
  have hfirst : (walkMachine Nat (executablePolicy { bytes := 3, depth := 1, members := 10 })).take
      (.value nestedValue 1) { ancestors := [], members := 0, bytes := 0 } =
        .ok ([.value (.array 1 false 0 0 []) 2, .exit 0],
          { ancestors := [0], members := 1, bytes := 2 }) := by rfl
  have hsecond : (walkMachine Nat
      (executablePolicy { bytes := 3, depth := 1, members := 10 })).take
        (.value (.array 1 false 0 0 []) 2) { ancestors := [0], members := 1, bytes := 2 } =
          .error .depth := by rfl
  have hwalk : assertSafeExecutableJson nestedValue { bytes := 3, depth := 1, members := 10 } =
      .error .depth := by
    rw [assertSafeExecutableJson, walk, StackMachine.run_cons_ok hfirst, List.cons_append,
      StackMachine.run_cons_error hsecond]
    rfl
  refine ⟨rfl, ?_, ?_⟩
  · simp [nestedValue, ProgramValue.IsAcyclic, AreAcyclicItems]
  · rw [hwalk]
    decide

end JsonBoundaries
end Pertexo
