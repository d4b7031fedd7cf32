import Pertexo.Values.JsonText

/-!
# Parsing serialized values

## The order of own keys

Defining a property keeps the order of own keys. A key that comes after all
others is added at the end.
-/

namespace Pertexo
namespace Values

def OwnOrder (members : List (ScriptString × α)) : Prop :=
  members.Pairwise fun left right => comesBefore left.fst right.fst = true

theorem scriptString_of_arrayIndex? {key : ScriptString} {index : Nat}
    (h : arrayIndex? key = some index) : key = scriptString (toString index) := by
  simp only [arrayIndex?, Option.ite_none_right_eq_some, Bool.and_eq_true, beq_iff_eq,
    Option.some.injEq] at h
  rcases h with ⟨⟨hkey, _⟩, hindex⟩
  rw [hindex] at hkey
  exact hkey

@[simp] theorem comesBefore_self (key : ScriptString) : comesBefore key key = false := by
  rw [comesBefore]
  cases arrayIndex? key with
  | none => simp
  | some index => simp

theorem ne_of_comesBefore {name key : ScriptString} (h : comesBefore name key = true) :
    name ≠ key := by
  intro heq
  rw [heq, comesBefore_self] at h
  cases h

theorem comesBefore_of_not {name key : ScriptString} (hne : name ≠ key)
    (h : ¬ comesBefore name key = true) : comesBefore key name = true := by
  cases hname : arrayIndex? name with
  | none =>
      cases hkey : arrayIndex? key with
      | none => simp [comesBefore, hname, hkey, hne] at h
      | some right => simp [comesBefore, hname, hkey]
  | some left =>
      cases hkey : arrayIndex? key with
      | none => simp [comesBefore, hname, hkey] at h
      | some right =>
          simp only [comesBefore, hname, hkey, decide_eq_true_eq] at h ⊢
          have hindices : left ≠ right := by
            intro heq
            apply hne
            rw [scriptString_of_arrayIndex? hname, scriptString_of_arrayIndex? hkey, heq]
          omega

/-- The keys that come after a later key also come after the key put before it. -/
theorem comesBefore_trans {key name other : ScriptString} (hkey : comesBefore key name = true)
    (hnot : ¬ comesBefore name key = true) (hother : comesBefore name other = true) :
    comesBefore key other = true := by
  cases hname : arrayIndex? name with
  | none =>
      cases hindex : arrayIndex? key with
      | none =>
          simp only [comesBefore, hname, hindex, bne_iff_ne] at hkey hnot
          exact absurd hkey.symm hnot
      | some left =>
          cases hlast : arrayIndex? other with
          | none => simp [comesBefore, hindex, hlast]
          | some last => simp [comesBefore, hname, hlast] at hother
  | some middle =>
      cases hindex : arrayIndex? key with
      | none => simp [comesBefore, hname, hindex] at hkey
      | some left =>
          cases hlast : arrayIndex? other with
          | none => simp [comesBefore, hindex, hlast]
          | some last =>
              simp only [comesBefore, hname, hindex, hlast, decide_eq_true_eq] at hkey hother ⊢
              omega

theorem mem_of_mem_defineProperty {key : ScriptString} {value : α}
    {members : List (ScriptString × α)} {member : ScriptString × α}
    (h : member ∈ defineProperty key value members) :
    member = (key, value) ∨ member ∈ members := by
  induction members with
  | nil => exact Or.inl (List.mem_singleton.mp h)
  | cons first rest ih =>
      obtain ⟨name, old⟩ := first
      rw [defineProperty] at h
      split at h
      · next hname =>
        rw [List.mem_cons] at h
        cases h with
        | inl hfirst => exact Or.inl (by rw [hfirst, beq_iff_eq.mp hname])
        | inr hrest => exact Or.inr (List.mem_cons_of_mem _ hrest)
      · split at h
        · rw [List.mem_cons] at h
          cases h with
          | inl hfirst => exact Or.inr (hfirst ▸ List.mem_cons_self ..)
          | inr hrest =>
              cases ih hrest with
              | inl hnew => exact Or.inl hnew
              | inr hold => exact Or.inr (List.mem_cons_of_mem _ hold)
        · exact List.mem_cons.mp h

theorem ownOrder_defineProperty {key : ScriptString} {value : α}
    {members : List (ScriptString × α)} (h : OwnOrder members) :
    OwnOrder (defineProperty key value members) := by
  induction members with
  | nil => exact List.pairwise_singleton ..
  | cons first rest ih =>
      obtain ⟨name, old⟩ := first
      have hparts := List.pairwise_cons.mp h
      rw [defineProperty]
      split
      · next hname =>
        exact List.pairwise_cons.mpr ⟨hparts.left, hparts.right⟩
      · next hname =>
        have hne : name ≠ key := fun heq => hname (beq_iff_eq.mpr heq)
        split
        · next hbefore =>
          apply List.pairwise_cons.mpr
          constructor
          · intro member hmember
            cases mem_of_mem_defineProperty hmember with
            | inl hnew => rw [hnew]; exact hbefore
            | inr hold => exact hparts.left member hold
          · exact ih hparts.right
        · next hbefore =>
          have hfirst := comesBefore_of_not hne hbefore
          apply List.pairwise_cons.mpr
          constructor
          · intro member hmember
            cases List.mem_cons.mp hmember with
            | inl heq => rw [heq]; exact hfirst
            | inr hrest => exact comesBefore_trans hfirst hbefore (hparts.left member hrest)
          · exact h

theorem defineProperty_of_ownOrder {key : ScriptString} {value : α}
    {members : List (ScriptString × α)} (h : OwnOrder (members ++ [(key, value)])) :
    defineProperty key value members = members ++ [(key, value)] := by
  induction members with
  | nil => rfl
  | cons first rest ih =>
      obtain ⟨name, old⟩ := first
      have hparts := List.pairwise_cons.mp h
      have hbefore : comesBefore name key = true :=
        hparts.left (key, value) (List.mem_append_right _ (List.mem_singleton_self _))
      have hne := ne_of_comesBefore hbefore
      rw [defineProperty, if_neg (by simpa using hne), if_pos hbefore, ih hparts.right]
      rfl

section

variable {Number : Type}

mutual

/-- Every object of the value lists its keys in the order of own keys. -/
def BoundedJsonValue.Ordered : BoundedJsonValue Number -> Prop
  | .array items => OrderedItems items
  | .object members => OwnOrder members ∧ OrderedMembers members
  | _ => True

def OrderedItems : List (BoundedJsonValue Number) -> Prop
  | [] => True
  | item :: rest => item.Ordered ∧ OrderedItems rest

def OrderedMembers : List (ScriptString × BoundedJsonValue Number) -> Prop
  | [] => True
  | (_, value) :: rest => value.Ordered ∧ OrderedMembers rest

end

theorem orderedItems_iff {items : List (BoundedJsonValue Number)} :
    OrderedItems items ↔ forall item, item ∈ items -> item.Ordered := by
  induction items with
  | nil => simp [OrderedItems]
  | cons item rest ih => simp [OrderedItems, ih]

theorem orderedMembers_iff {members : List (ScriptString × BoundedJsonValue Number)} :
    OrderedMembers members ↔ forall member, member ∈ members -> member.snd.Ordered := by
  induction members with
  | nil => simp [OrderedMembers]
  | cons member rest ih => simp [OrderedMembers, ih]

/-!
## Induction over values
-/

mutual

theorem value_induction {P : BoundedJsonValue Number -> Prop}
    (hscalar : forall value, (forall items, value ≠ .array items) ->
      (forall members, value ≠ .object members) -> P value)
    (harray : forall items, (forall item, item ∈ items -> P item) -> P (.array items))
    (hobject : forall members, (forall member, member ∈ members -> P member.snd) ->
      P (.object members)) : (value : BoundedJsonValue Number) -> P value
  | .null => hscalar _ (fun _ h => nomatch h) (fun _ h => nomatch h)
  | .bool _ => hscalar _ (fun _ h => nomatch h) (fun _ h => nomatch h)
  | .number _ => hscalar _ (fun _ h => nomatch h) (fun _ h => nomatch h)
  | .string _ => hscalar _ (fun _ h => nomatch h) (fun _ h => nomatch h)
  | .array items => harray items (items_induction hscalar harray hobject items)
  | .object members => hobject members (members_induction hscalar harray hobject members)

theorem items_induction {P : BoundedJsonValue Number -> Prop}
    (hscalar : forall value, (forall items, value ≠ .array items) ->
      (forall members, value ≠ .object members) -> P value)
    (harray : forall items, (forall item, item ∈ items -> P item) -> P (.array items))
    (hobject : forall members, (forall member, member ∈ members -> P member.snd) ->
      P (.object members)) :
    (items : List (BoundedJsonValue Number)) -> forall item, item ∈ items -> P item
  | [] => fun _ hitem => nomatch hitem
  | first :: rest => by
      intro item hitem
      rcases List.mem_cons.mp hitem with hfirst | hrest
      · rw [hfirst]
        exact value_induction hscalar harray hobject first
      · exact items_induction hscalar harray hobject rest item hrest

theorem members_induction {P : BoundedJsonValue Number -> Prop}
    (hscalar : forall value, (forall items, value ≠ .array items) ->
      (forall members, value ≠ .object members) -> P value)
    (harray : forall items, (forall item, item ∈ items -> P item) -> P (.array items))
    (hobject : forall members, (forall member, member ∈ members -> P member.snd) ->
      P (.object members)) :
    (members : List (ScriptString × BoundedJsonValue Number)) ->
      forall member, member ∈ members -> P member.snd
  | [] => fun _ hmember => nomatch hmember
  | (key, value) :: rest => by
      intro member hmember
      rcases List.mem_cons.mp hmember with hfirst | hrest
      · rw [hfirst]
        exact value_induction hscalar harray hobject value
      · exact members_induction hscalar harray hobject rest member hrest

end

theorem keys_scriptMembers (members : List (ScriptString × BoundedJsonValue Number)) :
    (scriptMembers members).map Prod.fst = members.map Prod.fst := by
  induction members with
  | nil => rfl
  | cons member rest ih => simp [scriptMembers, ih]

theorem ownOrder_scriptMembers {members : List (ScriptString × BoundedJsonValue Number)}
    (h : OwnOrder members) : OwnOrder (scriptMembers members) := by
  have hkeys : (members.map Prod.fst).Pairwise fun left right => comesBefore left right = true :=
    List.pairwise_map.mpr h
  rw [← keys_scriptMembers] at hkeys
  exact List.pairwise_map.mp hkeys

theorem ordered_defineProperty {key : ScriptString} {value : BoundedJsonValue Number}
    {members : List (ScriptString × BoundedJsonValue Number)}
    (hvalue : value.Ordered) (h : (BoundedJsonValue.object members).Ordered) :
    (BoundedJsonValue.object (defineProperty key value members)).Ordered := by
  constructor
  · exact ownOrder_defineProperty h.left
  · rw [orderedMembers_iff]
    intro member hmember
    cases mem_of_mem_defineProperty hmember with
    | inl hnew => rw [hnew]; exact hvalue
    | inr hold => exact orderedMembers_iff.mp h.right member hold

/-!
## Feeding the parser

Reading the text of a string appends the string to the units read so far.
-/

variable [ScriptNumber Number]

def feed (state : ParseState Number) (text : List Char) : Option (ParseState Number) :=
  text.foldlM parseStep state

@[simp] theorem feed_nil (state : ParseState Number) : feed state [] = some state :=
  rfl

theorem feed_cons (state : ParseState Number) (c : Char) (rest : List Char) :
    feed state (c :: rest) = (parseStep state c).bind fun next => feed next rest := by
  rw [feed, List.foldlM_cons]
  rfl

theorem feed_append (state : ParseState Number) (left right : List Char) :
    feed state (left ++ right) = (feed state left).bind fun next => feed next right := by
  rw [feed, List.foldlM_append]
  rfl

theorem hexDigitValue_digitChar {n : Nat} (h : n < 0x10) :
    hexDigitValue (Nat.digitChar n) = some n := by
  have hall : forall digit : Fin 0x10, hexDigitValue (Nat.digitChar digit) = some digit.val := by
    decide
  exact hall ⟨n, h⟩

theorem feed_unicodeEscape {n : Nat} (h : n < 0x10000) (isName : Bool) (units : ScriptString)
    (stack : List (ParseFrame Number)) :
    feed { mode := .text isName .plain units, stack } (unicodeEscape n) =
      some { mode := .text isName .plain (units ++ [UInt16.ofNat n]), stack } := by
  have hfirst := hexDigitValue_digitChar (n := n / 0x1000) (by omega)
  have hsecond := hexDigitValue_digitChar (n := n / 0x100 % 0x10) (by omega)
  have hthird := hexDigitValue_digitChar (n := n / 0x10 % 0x10) (by omega)
  have hfourth := hexDigitValue_digitChar (n := n % 0x10) (by omega)
  have hvalue : ((n / 0x1000 * 16 + n / 0x100 % 0x10) * 16 + n / 0x10 % 0x10) * 16 + n % 0x10 =
      n := by
    omega
  simp [unicodeEscape, feed_cons, parseStep, textStep, hfirst, hsecond, hthird, hfourth, hvalue,
    -UInt16.ofNat_add, -UInt16.ofNat_mul]

theorem charUnits_of_lt {c : Char} (h : c.toNat < 0x10000) :
    charUnits c = [UInt16.ofNat c.toNat] := by
  rw [charUnits, if_pos h]

theorem jsonControlEscape_eq {c : Char} (h : c.toNat <= 0x1f) :
    jsonControlEscape c = unicodeEscape c.toNat := by
  have hall : forall n : Fin 0x20, jsonControlEscape (Char.ofNat n) = unicodeEscape n.val := by
    decide
  have hc := hall ⟨c.toNat, by omega⟩
  rw [Char.ofNat_toNat] at hc
  exact hc

theorem feed_jsonCharText (c : Char) (isName : Bool) (units : ScriptString)
    (stack : List (ParseFrame Number)) :
    feed { mode := .text isName .plain units, stack } (jsonCharText c) =
      some { mode := .text isName .plain (units ++ charUnits c), stack } := by
  rw [jsonCharText]
  split
  · next hc => rw [beq_iff_eq.mp hc]; rfl
  split
  · next hc => rw [beq_iff_eq.mp hc]; rfl
  split
  · next hc => rw [beq_iff_eq.mp hc]; rfl
  split
  · next hc => rw [beq_iff_eq.mp hc]; rfl
  split
  · next hc => rw [beq_iff_eq.mp hc]; rfl
  split
  · next hc => rw [beq_iff_eq.mp hc]; rfl
  split
  · next hc => rw [beq_iff_eq.mp hc]; rfl
  split
  · next hcontrol =>
    rw [jsonControlEscape_eq hcontrol, charUnits_of_lt (by omega)]
    exact feed_unicodeEscape (by omega) isName units stack
  · next hquote hslash _ _ _ _ _ hplain =>
    simp only [beq_iff_eq] at hquote hslash
    simp [feed_cons, parseStep, textStep, hquote, hslash, hplain]

theorem feed_codePointText (point : CodePoint) (isName : Bool) (units : ScriptString)
    (stack : List (ParseFrame Number)) :
    feed { mode := .text isName .plain units, stack } (codePointText point) =
      some { mode := .text isName .plain (units ++ point.units), stack } := by
  cases point with
  | char c => exact feed_jsonCharText c isName units stack
  | lone unit =>
      have h := feed_unicodeEscape unit.toNat_lt isName units stack
      rw [UInt16.ofNat_toNat] at h
      exact h

theorem feed_codePoints (points : List CodePoint) (isName : Bool) (units : ScriptString)
    (stack : List (ParseFrame Number)) :
    feed { mode := .text isName .plain units, stack } (points.flatMap codePointText) =
      some { mode := .text isName .plain (units ++ points.flatMap CodePoint.units), stack } := by
  induction points generalizing units with
  | nil => simp
  | cons point rest ih =>
      rw [List.flatMap_cons, feed_append, feed_codePointText, Option.bind_some, ih,
        List.flatMap_cons, List.append_assoc]

theorem feed_quoted (text : ScriptString) (isName : Bool) (stack : List (ParseFrame Number)) :
    feed { mode := .text isName .plain [], stack }
        ((codePoints text).flatMap codePointText ++ ['"']) =
      some { mode := if isName then .colon text else .done (.string text), stack } := by
  rw [feed_append, feed_codePoints, Option.bind_some, units_codePoints, List.nil_append]
  rfl

/-!
## Ends of values

A number ends only at the character after its literal. Everywhere else a state
in which a number has been read counts as one in which the value is done.
-/

inductive Ends (value : ScriptValue Number) (stack : List (ParseFrame Number)) :
    ParseState Number -> Prop where
  | done : Ends value stack { mode := .done value, stack }
  | number {phase : NumberPhase} {text : List Char} (hcomplete : phase.isComplete = true)
      (hvalue : value = .number (ScriptNumber.read text)) :
      Ends value stack { mode := .number phase text, stack }

theorem Ends.parseStep_of_none {value : ScriptValue Number} {stack : List (ParseFrame Number)}
    {state : ParseState Number} (h : Ends value stack state) {c : Char}
    (hc : forall phase, numberStep phase c = none) :
    parseStep state c = afterValue value stack c := by
  cases h with
  | done => rfl
  | number hcomplete hvalue => simp [parseStep, hc, hcomplete, hvalue]

theorem Ends.parseStep_comma {value : ScriptValue Number} {stack : List (ParseFrame Number)}
    {state : ParseState Number} (h : Ends value stack state) :
    parseStep state ',' = afterValue value stack ',' := by
  apply h.parseStep_of_none
  intro phase
  cases phase <;> rfl

theorem Ends.parseStep_bracket {value : ScriptValue Number} {stack : List (ParseFrame Number)}
    {state : ParseState Number} (h : Ends value stack state) :
    parseStep state ']' = afterValue value stack ']' := by
  apply h.parseStep_of_none
  intro phase
  cases phase <;> rfl

theorem Ends.parseStep_brace {value : ScriptValue Number} {stack : List (ParseFrame Number)}
    {state : ParseState Number} (h : Ends value stack state) :
    parseStep state '}' = afterValue value stack '}' := by
  apply h.parseStep_of_none
  intro phase
  cases phase <;> rfl

theorem Ends.parseResult {value : ScriptValue Number} {state : ParseState Number}
    (h : Ends value [] state) : parseResult state = some value := by
  cases h with
  | done => rfl
  | number hcomplete hvalue => simp [Values.parseResult, hcomplete, hvalue]

/-!
## Number literals
-/

theorem feed_number {text : List Char} {phase final : NumberPhase}
    (h : text.foldlM numberStep phase = some final) (before : List Char)
    (stack : List (ParseFrame Number)) :
    feed { mode := .number phase before, stack } text =
      some { mode := .number final (before ++ text), stack } := by
  induction text generalizing phase before with
  | nil =>
      cases h
      simp
  | cons c rest ih =>
      rw [List.foldlM_cons] at h
      rcases Option.bind_eq_some_iff.mp h with ⟨next, hnext, hrest⟩
      rw [feed_cons]
      simp only [parseStep, hnext, Option.bind_some]
      rw [ih hrest]
      simp

theorem parseStep_of_numberStep {c : Char} {phase : NumberPhase}
    (h : numberStep .start c = some phase) {mode : ParseMode Number}
    (hmode : mode = .value ∨ mode = .firstItem) (stack : List (ParseFrame Number)) :
    parseStep { mode, stack } c = some { mode := .number phase [c], stack } := by
  have hne : forall d : Char, numberStep .start d = none -> c ≠ d := by
    intro d hd heq
    rw [heq, hd] at h
    cases h
  have hspace : isJsonSpace c = false := by
    simp [isJsonSpace, hne ' ' rfl, hne '\t' rfl, hne '\n' rfl, hne '\r' rfl]
  have hstart : startValue stack c = some { mode := .number phase [c], stack } := by
    simp [startValue, hne '"' rfl, hne '[' rfl, hne '{' rfl, hne 'n' rfl, hne 't' rfl,
      hne 'f' rfl, h]
  cases hmode with
  | inl hvalue => simp [parseStep, hvalue, hspace, hstart]
  | inr hfirst => simp [parseStep, hfirst, hspace, hne ']' rfl, hstart]

theorem exists_feed_literal (value : Number) {mode : ParseMode Number}
    (hmode : mode = .value ∨ mode = .firstItem) (stack : List (ParseFrame Number)) :
    exists state, feed { mode, stack } (ScriptNumber.text value) = some state ∧
      Ends (.number (.finite value)) stack state := by
  have hliteral := ScriptNumber.isNumberLiteral_text value
  rw [isNumberLiteral] at hliteral
  split at hliteral
  · next final hfinal =>
    cases htext : ScriptNumber.text value with
    | nil =>
        rw [htext] at hfinal
        cases hfinal
        cases hliteral
    | cons c rest =>
        rw [htext, List.foldlM_cons] at hfinal
        rcases Option.bind_eq_some_iff.mp hfinal with ⟨phase, hphase, hrest⟩
        exists { mode := .number final (c :: rest), stack }
        constructor
        · rw [feed_cons, parseStep_of_numberStep hphase hmode, Option.bind_some,
            feed_number hrest]
          rfl
        · apply Ends.number hliteral
          rw [← htext, ScriptNumber.read_text]
  · cases hliteral

/-!
## The text of a value

The text of a value brings the parser from the place where a value may start to
the end of that value, whatever is open around it.
-/

theorem parseStep_of_startValue {c : Char} {mode : ParseMode Number}
    (hmode : mode = .value ∨ mode = .firstItem) (hspace : isJsonSpace c = false)
    (hclose : c ≠ ']') (stack : List (ParseFrame Number)) :
    parseStep { mode, stack } c = startValue stack c := by
  cases hmode with
  | inl hvalue => simp [parseStep, hvalue, hspace]
  | inr hfirst => simp [parseStep, hfirst, hspace, hclose]

theorem commaJoin_cons {text : List Char} {rest : List (List Char)} (h : rest ≠ []) :
    commaJoin (text :: rest) = text ++ ',' :: commaJoin rest := by
  cases rest with
  | nil => exact absurd rfl h
  | cons next rest => rfl

theorem stringifyItems_eq_map (items : List (BoundedJsonValue Number)) :
    stringifyItems items = items.map stringify := by
  induction items with
  | nil => rfl
  | cons item rest ih => rw [stringifyItems, ih, List.map_cons]

theorem stringifyItems_ne_nil {items : List (BoundedJsonValue Number)} (h : items ≠ []) :
    stringifyItems items ≠ [] := by
  rw [stringifyItems_eq_map]
  simpa using h

theorem stringifyMembers_ne_nil
    {members : List (ScriptString × BoundedJsonValue Number)} (h : members ≠ []) :
    stringifyMembers members ≠ [] := by
  cases members with
  | nil => exact absurd rfl h
  | cons member rest => simp [stringifyMembers]

/-- The state after the last item, with the items before it still open. -/
def ItemsEnd (items : List (ScriptSlot (ScriptValue Number))) (stack : List (ParseFrame Number))
    (state : ParseState Number) : Prop :=
  exists before last,
    items = before ++ [.data last] ∧ Ends last (.array before :: stack) state

/-- The state after the last member, with the members before it still open. -/
def MembersEnd (members : List (ScriptString × ScriptSlot (ScriptValue Number)))
    (stack : List (ParseFrame Number)) (state : ParseState Number) : Prop :=
  exists before name last,
    members = before ++ [(name, .data last)] ∧ Ends last (.member before name :: stack) state

theorem ItemsEnd.parseStep_bracket {items : List (ScriptSlot (ScriptValue Number))}
    {stack : List (ParseFrame Number)} {state : ParseState Number}
    (h : ItemsEnd items stack state) :
    parseStep state ']' = some { mode := .done (plainArray items), stack } := by
  rcases h with ⟨before, last, hitems, hends⟩
  rw [hends.parseStep_bracket, hitems]
  rfl

theorem MembersEnd.parseStep_brace
    {members : List (ScriptString × ScriptSlot (ScriptValue Number))}
    {stack : List (ParseFrame Number)} {state : ParseState Number}
    (h : MembersEnd members stack state) (horder : OwnOrder members) :
    parseStep state '}' = some { mode := .done (plainObject members), stack } := by
  rcases h with ⟨before, name, last, hmembers, hends⟩
  rw [hmembers] at horder ⊢
  rw [hends.parseStep_brace, ← defineProperty_of_ownOrder horder]
  rfl

mutual

theorem exists_feed_stringify (value : BoundedJsonValue Number) (hordered : value.Ordered)
    {mode : ParseMode Number} (hmode : mode = .value ∨ mode = .firstItem)
    (stack : List (ParseFrame Number)) :
    exists state, feed { mode, stack } (stringify value) = some state ∧
      Ends value.script stack state := by
  match value with
  | .null =>
      rw [stringify]
      exists { mode := .done .null, stack }
      constructor
      · cases hmode with
        | inl h => rw [h]; rfl
        | inr h => rw [h]; rfl
      · exact Ends.done
  | .bool true =>
      rw [stringify, if_pos rfl]
      exists { mode := .done (.bool true), stack }
      constructor
      · cases hmode with
        | inl h => rw [h]; rfl
        | inr h => rw [h]; rfl
      · exact Ends.done
  | .bool false =>
      rw [stringify, if_neg (by decide)]
      exists { mode := .done (.bool false), stack }
      constructor
      · cases hmode with
        | inl h => rw [h]; rfl
        | inr h => rw [h]; rfl
      · exact Ends.done
  | .number value =>
      rw [stringify]
      exact exists_feed_literal value hmode stack
  | .string text =>
      rw [stringify, quoteText]
      exists { mode := .done (.string text), stack }
      constructor
      · rw [List.cons_append, feed_cons,
          parseStep_of_startValue hmode (by decide) (by decide)]
        exact feed_quoted text false stack
      · exact Ends.done
  | .array items =>
      rw [stringify, BoundedJsonValue.script]
      exists { mode := .done (plainArray (scriptItems items)), stack }
      constructor
      · rw [List.cons_append, feed_cons,
          parseStep_of_startValue hmode (by decide) (by decide)]
        change feed { mode := .firstItem, stack := .array [] :: stack } _ = _
        cases items with
        | nil => rfl
        | cons item rest =>
            rcases exists_feed_items (item :: rest) hordered (Or.inr rfl) [] stack (by simp)
              with ⟨state, hstate, hend⟩
            rw [feed_append, hstate, Option.bind_some, feed_cons, hend.parseStep_bracket]
            rfl
      · exact Ends.done
  | .object members =>
      rw [stringify, BoundedJsonValue.script]
      exists { mode := .done (plainObject (scriptMembers members)), stack }
      constructor
      · rw [List.cons_append, feed_cons,
          parseStep_of_startValue hmode (by decide) (by decide)]
        change feed { mode := .firstMember, stack := .object [] :: stack } _ = _
        cases members with
        | nil => rfl
        | cons member rest =>
            have horder := ownOrder_scriptMembers hordered.left
            rcases exists_feed_members (member :: rest) hordered.right (Or.inr rfl) [] stack
              (by simp) horder with ⟨state, hstate, hend⟩
            rw [feed_append, hstate, Option.bind_some, feed_cons, hend.parseStep_brace horder]
            rfl
      · exact Ends.done

theorem exists_feed_items (items : List (BoundedJsonValue Number)) (hordered : OrderedItems items)
    {mode : ParseMode Number} (hmode : mode = .value ∨ mode = .firstItem)
    (read : List (ScriptSlot (ScriptValue Number))) (stack : List (ParseFrame Number))
    (hne : items ≠ []) :
    exists state,
      feed { mode, stack := .array read :: stack } (commaJoin (stringifyItems items)) =
        some state ∧
      ItemsEnd (read ++ scriptItems items) stack state := by
  match items with
  | [] => exact absurd rfl hne
  | item :: rest =>
      rcases exists_feed_stringify item hordered.left hmode (.array read :: stack)
        with ⟨state, hstate, hends⟩
      rw [stringifyItems, scriptItems]
      cases rest with
      | nil =>
          exists state
          constructor
          · exact hstate
          · exact ⟨read, item.script, rfl, hends⟩
      | cons next rest =>
          rcases exists_feed_items (next :: rest) hordered.right (Or.inl rfl)
            (read ++ [.data item.script]) stack (by simp) with ⟨last, hlast, hend⟩
          exists last
          constructor
          · rw [commaJoin_cons (stringifyItems_ne_nil (by simp)), feed_append, hstate,
              Option.bind_some, feed_cons, hends.parseStep_comma]
            exact hlast
          · rw [List.append_assoc] at hend
            exact hend

theorem exists_feed_members (members : List (ScriptString × BoundedJsonValue Number))
    (hordered : OrderedMembers members) {mode : ParseMode Number}
    (hmode : mode = .member ∨ mode = .firstMember)
    (read : List (ScriptString × ScriptSlot (ScriptValue Number)))
    (stack : List (ParseFrame Number))
    (hne : members ≠ []) (horder : OwnOrder (read ++ scriptMembers members)) :
    exists state,
      feed { mode, stack := .object read :: stack } (commaJoin (stringifyMembers members)) =
        some state ∧
      MembersEnd (read ++ scriptMembers members) stack state := by
  match members with
  | [] => exact absurd rfl hne
  | (name, value) :: rest =>
      rcases exists_feed_stringify value hordered.left (Or.inl rfl) (.member read name :: stack)
        with ⟨state, hstate, hends⟩
      have hopen : parseStep { mode, stack := .object read :: stack } '"' =
          some { mode := .text true .plain [], stack := .object read :: stack } := by
        cases hmode with
        | inl h => rw [h]; rfl
        | inr h => rw [h]; rfl
      have hmember : feed { mode, stack := .object read :: stack }
          (quoteText name ++ ':' :: stringify value) = some state := by
        rw [quoteText, List.cons_append, List.cons_append, feed_cons, hopen, Option.bind_some,
          feed_append, feed_quoted, Option.bind_some, feed_cons]
        exact hstate
      rw [stringifyMembers]
      rw [scriptMembers] at horder ⊢
      cases rest with
      | nil =>
          exists state
          constructor
          · exact hmember
          · exact ⟨read, name, value.script, rfl, hends⟩
      | cons next rest =>
          rw [List.append_cons] at horder
          have hfront : OwnOrder (read ++ [(name, .data value.script)]) :=
            (List.pairwise_append.mp horder).left
          rcases exists_feed_members (next :: rest) hordered.right (Or.inl rfl)
            (read ++ [(name, .data value.script)]) stack (by simp) horder
            with ⟨last, hlast, hend⟩
          exists last
          constructor
          · rw [commaJoin_cons (stringifyMembers_ne_nil (by simp)), feed_append, hmember,
              Option.bind_some, feed_cons, hends.parseStep_comma]
            rw [← defineProperty_of_ownOrder hfront] at hlast
            exact hlast
          · rw [List.append_assoc] at hend
            exact hend

end

/-- Parsing the text of a value gives the value back. -/
theorem parseJson_stringify {value : BoundedJsonValue Number} (h : value.Ordered) :
    parseJson (stringify value) = some value.script := by
  rcases exists_feed_stringify value h (Or.inl rfl) [] with ⟨state, hstate, hends⟩
  rw [parseJson]
  change feed _ _ >>= _ = _
  rw [hstate]
  exact hends.parseResult

end

end Values
end Pertexo
