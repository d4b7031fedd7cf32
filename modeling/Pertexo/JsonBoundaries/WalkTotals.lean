import Pertexo.JsonBoundaries.EngineWalks

/-!
# Totals of the walks of the engine

## Measures of scalars
-/

namespace Pertexo
namespace JsonBoundaries

open Library
open Pagination
open Values

/-- Numbers whose zero is written with one digit. -/
class DecimalNumber (Number : Type) extends ScriptNumber Number where
  text_zero : text zero = ['0']

instance : DecimalNumber Nat where
  text_zero := by decide

/-- A length that was measured with a budget, and the length itself. -/
def Measures (stopAfterBytes : Option Int) (length whole : Nat) : Prop :=
  match stopAfterBytes with
  | none => length = whole
  | some maximum => SameWithin maximum length whole

theorem measures_jsonStringByteLength (value : ScriptString) (stopAfterBytes : Option Int) :
    Measures stopAfterBytes (jsonStringByteLength value stopAfterBytes)
      (Values.utf8ByteLength (quoteText value)) := by
  rw [← jsonStringByteLength_none]
  cases stopAfterBytes with
  | none => exact rfl
  | some maximum => exact jsonStringByteLength_sameWithin value maximum

theorem measures_self (stopAfterBytes : Option Int) (whole : Nat) :
    Measures stopAfterBytes whole whole := by
  cases stopAfterBytes with
  | none => exact rfl
  | some maximum => exact Or.inl rfl

theorem utf8Size_of_numberStep {phase next : NumberPhase} {c : Char}
    (h : numberStep phase c = some next) : c.utf8Size = 1 := by
  rw [Char.utf8Size_eq_one_iff]
  by_contra hlarge
  have hne : forall d : Char, d.val ≤ 127 -> (c == d) = false := by
    intro d hd
    rw [beq_eq_false_iff_ne]
    intro heq
    exact hlarge (heq ▸ hd)
  have hdigit : c.isDigit = false := by
    rw [Bool.eq_false_iff]
    intro hc
    apply hlarge
    simp only [Char.isDigit, Bool.and_eq_true, decide_eq_true_eq] at hc
    exact UInt32.le_trans hc.right (by decide)
  cases phase <;> simp [numberStep, isExponentMark, hne, hdigit] at h

theorem bytes_of_foldlM_numberStep {text : List Char} {phase final : NumberPhase}
    (h : text.foldlM numberStep phase = some final) :
    Values.utf8ByteLength text = text.length := by
  induction text generalizing phase with
  | nil => rfl
  | cons c rest ih =>
      rw [List.foldlM_cons] at h
      rcases Option.bind_eq_some_iff.mp h with ⟨next, hnext, hrest⟩
      rw [Pages.utf8ByteLength_cons, ih hrest, utf8Size_of_numberStep hnext, List.length_cons,
        Nat.add_comm]

section

variable {Number : Type} [ScriptNumber Number]

theorem bytes_numberText (value : Number) :
    Values.utf8ByteLength (ScriptNumber.text value) = (ScriptNumber.text value).length := by
  have hliteral := ScriptNumber.isNumberLiteral_text value
  rw [isNumberLiteral] at hliteral
  split at hliteral
  · next final hfinal =>
    exact bytes_of_foldlM_numberStep hfinal
  · cases hliteral

end

section

variable {Number : Type} [DecimalNumber Number]

theorem primitiveBytes_spec {item : ProgramValue Number} {data : BoundedJsonValue Number}
    (hdata : item.json? = some data) (hscalar : data.isScalar = true)
    (stopAfterBytes : Option Int) :
    exists amount, primitiveBytes item stopAfterBytes = some amount ∧
      Measures stopAfterBytes amount (textBytes data) := by
  cases isScalar_of_json hdata hscalar with
  | null => exact ⟨4, rfl, measures_self _ 4⟩
  | bool value =>
      cases value with
      | true => exact ⟨4, rfl, measures_self _ 4⟩
      | false => exact ⟨5, rfl, measures_self _ 5⟩
  | string text => exact ⟨_, rfl, measures_jsonStringByteLength text stopAfterBytes⟩
  | finite value =>
      refine ⟨_, rfl, ?_⟩
      rw [textBytes, stringify, bytes_numberText]
      exact measures_self _ _
  | negativeZero =>
      refine ⟨1, rfl, ?_⟩
      rw [textBytes, stringify, DecimalNumber.text_zero]
      exact measures_self _ 1

end

/-!
## Single charges
-/

/-- A policy under which neither a budget nor the limit on items refuses a value on its own. -/
structure FairPolicy (policy : WalkPolicy) : Prop where
  arrayItems : policy.members ≤ policy.arrayItems
  budget : forall bytes maximum, policy.stopAfterBytes bytes = some maximum ->
    (policy.bytes : Int) - bytes ≤ maximum
  keyAmounts : forall length, (policy.keyAmounts length).sum = length + 1

def WalkPolicy.limits (policy : WalkPolicy) : TotalLimits
  | .bytes => some policy.bytes
  | .members => some policy.members
  | .depth => some policy.depth

def WalkFailure.kind : WalkFailure -> Option LimitKind
  | .bytes => some .bytes
  | .depth => some .depth
  | .members => some .members
  | .arrayItems => some .members
  | _ => none

def counting (bytes members : Nat) : Totals :=
  { bytes, members, depth := 0 }

@[simp] theorem counted_counting (bytes members : Nat) :
    (counting bytes members).counted = counting bytes members := rfl

@[simp] theorem counting_add (bytes members moreBytes moreMembers : Nat) :
    counting bytes members + counting moreBytes moreMembers =
      counting (bytes + moreBytes) (members + moreMembers) := rfl

section

variable {policy : WalkPolicy}

theorem within_counting {bytes members : Nat} :
    Within policy.limits (counting bytes members) ↔
      bytes ≤ policy.bytes ∧ members ≤ policy.members := by
  constructor
  · intro h
    constructor
    · exact Nat.le_of_not_lt fun hlt => h .bytes ⟨policy.bytes, rfl, hlt⟩
    · exact Nat.le_of_not_lt fun hlt => h .members ⟨policy.members, rfl, hlt⟩
  · rintro ⟨hbytes, hmembers⟩ kind ⟨maximum, hlimit, hexceeds⟩
    cases kind with
    | bytes =>
        cases hlimit
        exact absurd hbytes (Nat.not_le_of_lt hexceeds)
    | members =>
        cases hlimit
        exact absurd hmembers (Nat.not_le_of_lt hexceeds)
    | depth => exact absurd hexceeds (Nat.not_lt_zero _)

theorem accounts_countMember {bytes members : Nat}
    (h : Within policy.limits (counting bytes members)) :
    Accounts policy.limits WalkFailure.kind (counting bytes (members + 1)) (members + 1)
      (countMember policy members) := by
  rw [countMember]
  split
  · next hfits =>
    exact Or.inl ⟨rfl, within_counting.mpr ⟨(within_counting.mp h).left, hfits⟩⟩
  · next hexceeds =>
    exact accounts_error rfl ⟨policy.members, rfl, Nat.lt_of_not_le hexceeds⟩

theorem accounts_addBytes {bytes members : Nat}
    (h : Within policy.limits (counting bytes members)) (amount : Nat) :
    Accounts policy.limits WalkFailure.kind (counting (bytes + amount) members) (bytes + amount)
      (addBytes policy bytes amount) := by
  rw [addBytes]
  split
  · next hfits =>
    exact Or.inl ⟨rfl, within_counting.mpr ⟨hfits, (within_counting.mp h).right⟩⟩
  · next hexceeds =>
    exact accounts_error rfl ⟨policy.bytes, rfl, Nat.lt_of_not_le hexceeds⟩

theorem accounts_amounts (amounts : List Nat) {bytes members : Nat}
    (h : Within policy.limits (counting bytes members)) :
    Accounts policy.limits WalkFailure.kind (counting (bytes + amounts.sum) members)
      (bytes + amounts.sum) (amounts.foldlM (addBytes policy) bytes) := by
  induction amounts generalizing bytes with
  | nil => exact Or.inl ⟨rfl, h⟩
  | cons amount rest ih =>
      have hfirst := accounts_addBytes h amount
      rw [List.foldlM_cons, List.sum_cons, ← Nat.add_assoc]
      rcases hfirst with ⟨hok, hwithin⟩ | ⟨failure, kind, herror, hkind, hexceeds⟩
      · rw [hok]
        exact ih hwithin
      · rw [herror]
        refine accounts_error hkind (hexceeds.mono ?_)
        exact of_le_add kind _ (counting rest.sum 0)

/-- An amount that was measured with a budget of what is left counts like the whole amount. -/
theorem accounts_measured (hfair : FairPolicy policy) {current bytes members length whole : Nat}
    (hmeasures : Measures (policy.stopAfterBytes current) length whole)
    (hcurrent : current ≤ bytes) (extra : Nat) {result : Except WalkFailure Nat}
    (h : Accounts policy.limits WalkFailure.kind (counting (bytes + length + extra) members)
      (bytes + length + extra) result) :
    Accounts policy.limits WalkFailure.kind (counting (bytes + whole + extra) members)
      (bytes + whole + extra) result := by
  rw [Measures.eq_def] at hmeasures
  split at hmeasures
  · rw [← hmeasures]
    exact h
  · next maximum hmaximum =>
    have hbudget := hfair.budget current maximum hmaximum
    rcases hmeasures with hsame | ⟨hlength, hwhole⟩
    · rw [← hsame]
      exact h
    · have hover : policy.bytes < bytes + length + extra := by omega
      have hwholeOver : policy.bytes < bytes + whole + extra := by omega
      have hexceeds : Exceeds policy.limits .bytes (counting (bytes + length + extra) members) :=
        ⟨policy.bytes, rfl, hover⟩
      apply h.of_exceeds hexceeds
      intro kind hkind
      cases kind with
      | bytes => exact ⟨policy.bytes, rfl, hwholeOver⟩
      | members => exact hkind
      | depth => exact hkind

theorem accounts_bind_counting {Middle State : Type} {bytes members moreBytes moreMembers : Nat}
    {middle : Middle} {final : State} {first : Except WalkFailure Middle}
    {rest : Middle -> Except WalkFailure State}
    (hfirst : Accounts policy.limits WalkFailure.kind (counting bytes members) middle first)
    (hbytes : bytes ≤ moreBytes) (hmembers : members ≤ moreMembers)
    (hrest : Within policy.limits (counting bytes members) ->
      Accounts policy.limits WalkFailure.kind (counting moreBytes moreMembers) final
        (rest middle)) :
    Accounts policy.limits WalkFailure.kind (counting moreBytes moreMembers) final
      (first >>= rest) := by
  rcases hfirst with ⟨rfl, hwithin⟩ | ⟨failure, kind, rfl, hkind, hexceeds⟩
  · exact hrest hwithin
  · apply accounts_error hkind
    apply hexceeds.mono
    cases kind with
    | bytes => exact hbytes
    | members => exact hmembers
    | depth => exact Nat.le_refl _

/-!
## The keys of a container
-/

section

variable {Number : Type}

theorem accounts_readItems [ScriptNumber Number]
    {items : List (Bool × OwnProperty (ProgramValue Number))}
    {data : List (BoundedJsonValue Number)} (hdata : jsonOfItems items = some data)
    (counts : KeyCounts) (h : Within policy.limits (counting counts.bytes counts.members)) :
    Accounts policy.limits WalkFailure.kind
      (counting counts.bytes (counts.members + items.length))
      { counts with
        members := counts.members + items.length
        enumerableCount := counts.enumerableCount + items.length }
      ((shownItems counts.enumerableCount items).foldlM (readItem policy) counts) := by
  induction items generalizing data counts with
  | nil => exact Or.inl ⟨rfl, h⟩
  | cons item rest ih =>
      rcases item with ⟨isEnumerable, property⟩
      cases isEnumerable with
      | false => cases hdata
      | true =>
          cases property with
          | missing => cases hdata
          | accessor answer => cases hdata
          | data value =>
              rw [jsonOfItems] at hdata
              rcases Option.bind_eq_some_iff.mp hdata with ⟨first, _, hdata⟩
              rcases Option.bind_eq_some_iff.mp hdata with ⟨others, hothers, _⟩
              rw [shownItems, List.foldlM_cons, readItem, bind_assoc]
              apply accounts_bind_counting (accounts_countMember h)
              · exact Nat.le_refl _
              · rw [List.length_cons]
                omega
              · intro hcounted
                rw [if_pos rfl]
                have hrest := ih hothers
                  { counts with
                    members := counts.members + 1
                    enumerableCount := counts.enumerableCount + 1 } hcounted
                rw [List.length_cons, Nat.add_comm rest.length 1, ← Nat.add_assoc,
                  ← Nat.add_assoc]
                exact hrest

def keyTextBytes (enumerableCount : Nat) : List (ScriptString × ProgramValue Number) -> Nat
  | [] => 0
  | (key, _) :: rest =>
      (if enumerableCount > 0 then 1 else 0) + (Values.utf8ByteLength (quoteText key) + 1) +
        keyTextBytes (enumerableCount + 1) rest

theorem keyTextBytes_succ (enumerableCount : Nat)
    (members : List (ScriptString × ProgramValue Number)) :
    keyTextBytes (enumerableCount + 1) members =
      (members.map fun member => Values.utf8ByteLength (quoteText member.fst) + 1).sum +
        members.length := by
  induction members generalizing enumerableCount with
  | nil => rfl
  | cons member rest ih =>
      rw [keyTextBytes, ih, if_pos (Nat.succ_pos _), List.map_cons, List.sum_cons,
        List.length_cons]
      omega

theorem keyTextBytes_zero (members : List (ScriptString × ProgramValue Number)) :
    keyTextBytes 0 members =
      (members.map fun member => Values.utf8ByteLength (quoteText member.fst) + 1).sum +
        (members.length - 1) := by
  cases members with
  | nil => rfl
  | cons member rest =>
      rw [keyTextBytes, keyTextBytes_succ, if_neg (Nat.lt_irrefl 0), List.map_cons,
        List.sum_cons, List.length_cons]
      omega

theorem accounts_addSeparator {counts : KeyCounts} {members : Nat}
    (h : Within policy.limits (counting counts.bytes members)) :
    Accounts policy.limits WalkFailure.kind
      (counting (counts.bytes + if counts.enumerableCount > 0 then 1 else 0) members)
      (counts.bytes + if counts.enumerableCount > 0 then 1 else 0)
      (addSeparator policy counts) := by
  rw [addSeparator]
  split
  · exact accounts_addBytes h 1
  · exact Or.inl ⟨rfl, h⟩

theorem accounts_readMembers (hfair : FairPolicy policy)
    (members : List (ScriptString × ProgramValue Number)) (counts : KeyCounts)
    (h : Within policy.limits (counting counts.bytes counts.members)) :
    Accounts policy.limits WalkFailure.kind
      (counting (counts.bytes + keyTextBytes counts.enumerableCount members)
        (counts.members + members.length))
      { members := counts.members + members.length
        bytes := counts.bytes + keyTextBytes counts.enumerableCount members
        enumerableCount := counts.enumerableCount + members.length }
      (members.foldlM (readMember policy) counts) := by
  induction members generalizing counts with
  | nil => exact Or.inl ⟨rfl, h⟩
  | cons member rest ih =>
      rcases member with ⟨key, value⟩
      rw [List.foldlM_cons, readMember, bind_assoc]
      apply accounts_bind_counting (accounts_countMember h)
      · exact Nat.le_add_right _ _
      · rw [List.length_cons]
        omega
      · intro hcounted
        rw [bind_assoc]
        apply accounts_bind_counting (accounts_addSeparator hcounted)
        · rw [keyTextBytes]
          omega
        · rw [List.length_cons]
          omega
        · intro hseparated
          rw [bind_assoc]
          have hkey := accounts_amounts
            (policy.keyAmounts (jsonStringByteLength key (policy.stopAfterBytes
              (counts.bytes + if counts.enumerableCount > 0 then 1 else 0)))) hseparated
          rw [hfair.keyAmounts, ← Nat.add_assoc] at hkey
          have hmeasured := accounts_measured hfair
            (measures_jsonStringByteLength key _) (Nat.le_refl _) 1 hkey
          apply accounts_bind_counting hmeasured
          · rw [keyTextBytes]
            omega
          · rw [List.length_cons]
            omega
          · intro hwritten
            have hrest := ih
              { members := counts.members + 1
                bytes := (counts.bytes + if counts.enumerableCount > 0 then 1 else 0) +
                  Values.utf8ByteLength (quoteText key) + 1
                enumerableCount := counts.enumerableCount + 1 } hwritten
            rw [keyTextBytes, List.length_cons, Nat.add_comm rest.length 1]
            simp only [← Nat.add_assoc] at hrest ⊢
            exact hrest

end

/-!
## Containers
-/

def WalkState.spent (state : WalkState) : Totals :=
  counting state.bytes state.members

def WalkState.charge (state : WalkState) (total : Totals) : WalkState :=
  { state with members := state.members + total.members, bytes := state.bytes + total.bytes }

theorem WalkState.charge_add (state : WalkState) (first second : Totals) :
    (state.charge first).charge second = state.charge (first + second) := by
  simp [WalkState.charge, Nat.add_assoc]

theorem Accounts.at_depth {State : Type} {bytes members depth : Nat} {final : State}
    {result : Except WalkFailure State}
    (h : Accounts policy.limits WalkFailure.kind (counting bytes members) final result)
    (hdepth : depth ≤ policy.depth) :
    Accounts policy.limits WalkFailure.kind { bytes, members, depth } final result := by
  rcases h with ⟨hok, hwithin⟩ | ⟨failure, kind, herror, hkind, hexceeds⟩
  · apply Or.inl
    refine ⟨hok, ?_⟩
    intro kind hexceeds
    cases kind with
    | bytes => exact hwithin .bytes hexceeds
    | members => exact hwithin .members hexceeds
    | depth =>
        rcases hexceeds with ⟨maximum, hlimit, hlt⟩
        cases hlimit
        exact absurd hdepth (Nat.not_le_of_lt hlt)
  · refine Or.inr ⟨failure, kind, herror, hkind, hexceeds.mono ?_⟩
    cases kind with
    | bytes => exact Nat.le_refl _
    | members => exact Nat.le_refl _
    | depth => exact Nat.zero_le _

section

variable {Number : Type}

theorem accounts_container {State : Type} {depth identity bytes members : Nat}
    {ancestors : List Nat} (hfresh : identity ∉ ancestors) {final : State}
    {rest : Unit -> Except WalkFailure State}
    (hrest : Accounts policy.limits WalkFailure.kind (counting bytes members) final (rest ())) :
    Accounts policy.limits WalkFailure.kind { bytes, members, depth } final
      (assertContainer policy depth identity ancestors >>= rest) := by
  rw [assertContainer]
  by_cases hdepth : depth ≤ policy.depth
  · have hnew : ¬ ancestors.contains identity = true := fun h =>
      hfresh (List.contains_iff_mem.mp h)
    rw [if_neg (not_not.mpr hdepth), if_neg hnew]
    exact hrest.at_depth hdepth
  · rw [if_pos hdepth]
    exact accounts_error rfl ⟨policy.depth, rfl, Nat.lt_of_not_le hdepth⟩

/-- What a container is charged for before its children are walked. -/
def ownTotals (depth length keyBytes : Nat) : Totals :=
  { bytes := 2 + keyBytes, members := length, depth }

theorem accounts_takeArray [ScriptNumber Number] (hfair : FairPolicy policy)
    {items : List (Bool × OwnProperty (ProgramValue Number))}
    {data : List (BoundedJsonValue Number)} (hdata : jsonOfItems items = some data)
    {identity hiddenNames depth : Nat} {hasSymbols : Bool} {state : WalkState}
    (hfresh : identity ∉ state.ancestors) (h : Within policy.limits state.spent) :
    Accounts policy.limits WalkFailure.kind
      (state.spent + ownTotals depth items.length (items.length - 1))
      (childFrames (shownItems 0 items) (depth + 1) identity,
        { state.charge (ownTotals depth items.length (items.length - 1)) with
          ancestors := identity :: state.ancestors })
      (takeContainer policy (.array identity hasSymbols hiddenNames 0 items) depth state) := by
  have htotal : state.spent + ownTotals depth items.length (items.length - 1) =
      { bytes := state.bytes + (2 + (items.length - 1))
        members := state.members + items.length
        depth } := by
    ext
    · rfl
    · rfl
    · exact Nat.max_eq_right (Nat.zero_le _)
  rw [htotal, takeContainer]
  apply accounts_container hfresh
  by_cases hitems : items.length ≤ policy.arrayItems
  · rw [if_neg (not_not.mpr hitems)]
    apply accounts_bind_counting (accounts_addBytes h _) (Nat.le_refl _) (Nat.le_add_right _ _)
    intro hadded
    have hread := accounts_readItems hdata
      { members := state.members
        bytes := state.bytes + (2 + (items.length - 1))
        enumerableCount := 0 } hadded
    apply accounts_bind_counting hread (Nat.le_refl _) (Nat.le_refl _)
    intro hcounted
    rw [readFurtherNames, if_pos rfl]
    show Accounts _ _ _ _ (if 0 + items.length = items.length then _ else _)
    rw [if_pos (Nat.zero_add _)]
    exact Or.inl ⟨rfl, hcounted⟩
  · rw [if_pos hitems]
    have hmany : policy.members < state.members + items.length := by
      have hfew := hfair.arrayItems
      omega
    exact accounts_error rfl ⟨policy.members, rfl, hmany⟩

theorem accounts_takeObject (hfair : FairPolicy policy)
    {members : List (ScriptString × OwnProperty (ProgramValue Number))}
    {identity hiddenNames depth : Nat} {hasSymbols : Bool} {state : WalkState}
    (hfresh : identity ∉ state.ancestors) (h : Within policy.limits state.spent) :
    Accounts policy.limits WalkFailure.kind
      (state.spent + ownTotals depth (readMembers members).length
        (keyTextBytes 0 (readMembers members)))
      (childFrames (readMembers members) (depth + 1) identity,
        { state.charge (ownTotals depth (readMembers members).length
            (keyTextBytes 0 (readMembers members))) with
          ancestors := identity :: state.ancestors })
      (takeContainer policy (.object identity true hasSymbols hiddenNames members) depth
        state) := by
  have htotal : state.spent + ownTotals depth (readMembers members).length
        (keyTextBytes 0 (readMembers members)) =
      { bytes := state.bytes + 2 + keyTextBytes 0 (readMembers members)
        members := state.members + (readMembers members).length
        depth } := by
    ext
    · exact (Nat.add_assoc _ _ _).symm
    · rfl
    · exact Nat.max_eq_right (Nat.zero_le _)
  rw [htotal, takeContainer]
  apply accounts_container hfresh
  rw [if_neg (by decide)]
  apply accounts_bind_counting (accounts_addBytes h 2) (Nat.le_add_right _ _)
    (Nat.le_add_right _ _)
  intro hadded
  have hread := accounts_readMembers hfair (readMembers members)
    { members := state.members, bytes := state.bytes + 2, enumerableCount := 0 } hadded
  apply accounts_bind_counting hread (Nat.le_refl _) (Nat.le_refl _)
  intro hcounted
  refine Or.inl ⟨?_, hcounted⟩
  show Except.ok _ = Except.ok _
  rw [WalkState.charge, ownTotals, ← Nat.add_assoc]

end

end

end JsonBoundaries
end Pertexo
