import Pertexo.StoredValues.StorableTexts

/-!
# Copies of JSON data

The walk that copies a value counts its bytes, members and depth, and it succeeds exactly when
these are within the limits.

## Charges
-/

namespace Pertexo
namespace StoredValues

open Canonical
open JsonBoundaries
open Library
open Pages
open Pagination
open Values

def storedLimits : TotalLimits
  | .bytes => some storedInlineBytes
  | .members => some storedExecutionValueLimits.members
  | .depth => some storedExecutionValueLimits.depth

/-- A text that is not stored counts as more bytes than are allowed. -/
def StoredValueRefusal.kind : StoredValueRefusal -> Option LimitKind
  | .bytes => some .bytes
  | .text => some .bytes
  | .members => some .members
  | .depth => some .depth
  | .contents => none

theorem within_counting {bytes members : Nat} :
    Within storedLimits (counting bytes members) ↔
      bytes ≤ storedInlineBytes ∧ members ≤ storedExecutionValueLimits.members := by
  constructor
  · intro h
    constructor
    · exact Nat.le_of_not_lt fun hlt => h .bytes ⟨storedInlineBytes, rfl, hlt⟩
    · exact Nat.le_of_not_lt fun hlt => h .members ⟨storedExecutionValueLimits.members, rfl, hlt⟩
  · intro hfits kind ⟨maximum, hlimit, hexceeds⟩
    cases kind with
    | bytes =>
        cases hlimit
        exact absurd hfits.left (Nat.not_le_of_lt hexceeds)
    | members =>
        cases hlimit
        exact absurd hfits.right (Nat.not_le_of_lt hexceeds)
    | depth => exact absurd hexceeds (Nat.not_lt_zero _)

theorem accounts_addBytes {bytes members : Nat} (h : Within storedLimits (counting bytes members))
    (amount : Nat) :
    Accounts storedLimits StoredValueRefusal.kind (counting (bytes + amount) members)
      (bytes + amount) (addBytes bytes amount) := by
  rw [addBytes]
  split
  · next hexceeds => exact accounts_error rfl ⟨storedInlineBytes, rfl, hexceeds⟩
  · next hfits =>
    exact Or.inl ⟨rfl, within_counting.mpr ⟨Nat.le_of_not_lt hfits, (within_counting.mp h).right⟩⟩

theorem accounts_countMember {bytes members : Nat}
    (h : Within storedLimits (counting bytes members)) :
    Accounts storedLimits StoredValueRefusal.kind (counting bytes (members + 1)) (members + 1)
      (countMember members) := by
  rw [countMember]
  split
  · next hexceeds =>
    exact accounts_error rfl ⟨storedExecutionValueLimits.members, rfl, hexceeds⟩
  · next hfits =>
    exact Or.inl ⟨rfl, within_counting.mpr ⟨(within_counting.mp h).left, Nat.le_of_not_lt hfits⟩⟩

theorem accounts_text {State : Type} {bytes members extra : Nat} {text : ScriptString}
    {final : State} {rest : Nat -> Except StoredValueRefusal State}
    (hrest : Accounts storedLimits StoredValueRefusal.kind
      (counting (bytes + (storedTextCost text + extra)) members) final
      (rest (storedTextCost text))) :
    Accounts storedLimits StoredValueRefusal.kind
      (counting (bytes + (storedTextCost text + extra)) members) final
      (jsonStringBytes text >>= rest) := by
  rw [jsonStringBytes]
  cases hbytes : storedExecutionJsonStringBytes text with
  | some amount =>
      have hcost : storedTextCost text = amount := by rw [storedTextCost, hbytes, Option.getD_some]
      rw [hcost] at hrest
      rw [hcost]
      exact hrest
  | none =>
      have hcost : storedTextCost text = storedInlineBytes + 1 := by
        rw [storedTextCost, hbytes, Option.getD_none]
      refine accounts_error rfl ⟨storedInlineBytes, rfl, ?_⟩
      show storedInlineBytes < bytes + (storedTextCost text + extra)
      omega

theorem accounts_bind {Middle State : Type} {bytes members moreBytes moreMembers : Nat}
    {middle : Middle} {final : State} {first : Except StoredValueRefusal Middle}
    {rest : Middle -> Except StoredValueRefusal State}
    (hfirst : Accounts storedLimits StoredValueRefusal.kind (counting bytes members) middle first)
    (hbytes : bytes ≤ moreBytes) (hmembers : members ≤ moreMembers)
    (hrest : Within storedLimits (counting bytes members) ->
      Accounts storedLimits StoredValueRefusal.kind (counting moreBytes moreMembers) final
        (rest middle)) :
    Accounts storedLimits StoredValueRefusal.kind (counting moreBytes moreMembers) final
      (first >>= rest) := by
  rcases hfirst with ⟨rfl, hwithin⟩ | ⟨failure, kind, rfl, hkind, hexceeds⟩
  · exact hrest hwithin
  · apply accounts_error hkind
    apply hexceeds.mono
    cases kind with
    | bytes => exact hbytes
    | members => exact hmembers
    | depth => exact Nat.le_refl _

/-!
## The keys of a container
-/

section

variable {Number : Type}

def itemChildren (index : Nat) (items : List (Bool × OwnProperty (ProgramValue Number))) :
    List (ScriptString × ProgramValue Number) :=
  (heldItems index items).map fun item => (scriptString (toString item.fst), item.snd)

theorem itemChildren_cons (index : Nat) (value : ProgramValue Number)
    (rest : List (Bool × OwnProperty (ProgramValue Number))) :
    itemChildren index ((true, .data value) :: rest) =
      (scriptString (toString index), value) :: itemChildren (index + 1) rest := rfl

theorem length_itemChildren [ScriptNumber Number]
    {items : List (Bool × OwnProperty (ProgramValue Number))}
    {data : List (BoundedJsonValue Number)} (hdata : jsonOfItems items = some data) (index : Nat) :
    (itemChildren index items).length = items.length := by
  induction items generalizing data index with
  | nil => rfl
  | cons item rest ih =>
      rcases shown_of_jsonOfItems hdata List.mem_cons_self with ⟨value, rfl⟩
      rw [jsonOfItems] at hdata
      rcases Option.bind_eq_some_iff.mp hdata with ⟨first, _, hdata⟩
      rcases Option.bind_eq_some_iff.mp hdata with ⟨others, hothers, _⟩
      rw [itemChildren_cons, List.length_cons, ih hothers, List.length_cons]

theorem accounts_readInlineItems [ScriptNumber Number]
    {items : List (Bool × OwnProperty (ProgramValue Number))}
    {data : List (BoundedJsonValue Number)} (hdata : jsonOfItems items = some data)
    (read : InlineChildren Number)
    (h : Within storedLimits (counting read.bytes read.members)) :
    Accounts storedLimits StoredValueRefusal.kind
      (counting read.bytes (read.members + items.length))
      { members := read.members + items.length
        bytes := read.bytes
        children := read.children ++ itemChildren read.children.length items }
      ((enumeratedItems read.children.length items).foldlM readInlineItem read) := by
  induction items generalizing data read with
  | nil =>
      refine Or.inl ⟨?_, h⟩
      show Except.ok read = Except.ok _
      rw [itemChildren, heldItems, List.map_nil, List.append_nil]
      rfl
  | cons item rest ih =>
      rcases shown_of_jsonOfItems hdata List.mem_cons_self with ⟨value, rfl⟩
      rw [jsonOfItems] at hdata
      rcases Option.bind_eq_some_iff.mp hdata with ⟨first, _, hdata⟩
      rcases Option.bind_eq_some_iff.mp hdata with ⟨others, hothers, _⟩
      have hkeys : enumeratedItems read.children.length ((true, .data value) :: rest) =
          (read.children.length, .data value) ::
            enumeratedItems (read.children.length + 1) rest := rfl
      rw [hkeys, List.foldlM_cons]
      show Accounts _ _ _ _ ((countMember read.members >>= fun members =>
        if read.children.length != read.children.length then Except.error .contents
        else Except.ok { read with
          members
          children := read.children ++
            [(scriptString (toString read.children.length), value)] }) >>= _)
      rw [bind_assoc]
      apply accounts_bind (accounts_countMember h)
      · exact Nat.le_refl _
      · rw [List.length_cons]
        omega
      · intro hcounted
        rw [bne_self_eq_false]
        show Accounts _ _ _ _ ((enumeratedItems (read.children.length + 1) rest).foldlM
          readInlineItem _)
        have hrest := ih hothers
          { members := read.members + 1
            bytes := read.bytes
            children := read.children ++
              [(scriptString (toString read.children.length), value)] } hcounted
        dsimp only at hrest
        rw [List.length_append, List.length_singleton] at hrest
        rw [itemChildren_cons, List.length_cons, Nat.add_comm rest.length 1, ← Nat.add_assoc]
        rw [List.append_assoc, List.singleton_append] at hrest
        exact hrest

def keyCosts (members : List (ScriptString × OwnProperty (ProgramValue Number))) : Nat :=
  (members.map fun member => storedTextCost member.fst + 1).sum

theorem accounts_readInlineMembers
    {members : List (ScriptString × OwnProperty (ProgramValue Number))}
    (hdata : forall member, member ∈ members -> exists value, member.snd = .data value)
    (read : InlineChildren Number)
    (h : Within storedLimits (counting read.bytes read.members)) :
    Accounts storedLimits StoredValueRefusal.kind
      (counting (read.bytes + keyCosts members) (read.members + members.length))
      { members := read.members + members.length
        bytes := read.bytes + keyCosts members
        children := read.children ++ readMembers members }
      (members.foldlM readInlineMember read) := by
  induction members generalizing read with
  | nil =>
      refine Or.inl ⟨?_, h⟩
      show Except.ok read = Except.ok _
      rw [readMembers, List.append_nil]
      rfl
  | cons member rest ih =>
      rcases member with ⟨key, property⟩
      rcases hdata _ List.mem_cons_self with ⟨value, rfl⟩
      rw [List.foldlM_cons]
      show Accounts _ _ _ _ ((countMember read.members >>= fun members =>
        jsonStringBytes key >>= fun keyBytes => addBytes read.bytes (keyBytes + 1) >>= fun bytes =>
          Except.ok ({ members, bytes, children := read.children ++ [(key, value)] } :
            InlineChildren Number)) >>= fun next => rest.foldlM readInlineMember next)
      have hcost : keyCosts ((key, OwnProperty.data value) :: rest) =
          storedTextCost key + 1 + keyCosts rest := by
        rw [keyCosts, List.map_cons, List.sum_cons]
        rfl
      rw [bind_assoc, hcost, List.length_cons]
      apply accounts_bind (accounts_countMember h)
      · exact Nat.le_add_right _ _
      · omega
      · intro hcounted
        rw [bind_assoc, Nat.add_assoc (storedTextCost key)]
        apply accounts_text
        rw [bind_assoc, ← Nat.add_assoc (storedTextCost key)]
        apply accounts_bind (accounts_addBytes hcounted _)
        · omega
        · omega
        · intro hadded
          have hrest := ih (fun other hother => hdata other (List.mem_cons_of_mem _ hother))
            { members := read.members + 1
              bytes := read.bytes + (storedTextCost key + 1)
              children := read.children ++ [(key, value)] } hadded
          dsimp only at hrest
          rw [List.append_assoc, List.singleton_append, Nat.add_assoc read.bytes,
            Nat.add_assoc read.members, Nat.add_comm 1] at hrest
          exact hrest

end

/-!
## Frames
-/

section

variable {Number : Type} [ScriptNumber Number]

/-- How deep containers reach that stand below a number of levels. -/
def reached (above levels : Nat) : Nat :=
  if levels = 0 then 0 else above + levels

def cloneTotals (above : Nat) (data : BoundedJsonValue Number) : Totals :=
  { bytes := storedBytes data, members := data.memberCount, depth := reached above data.depth }

def cloneItemTotals (above : Nat) (data : List (BoundedJsonValue Number)) : Totals :=
  { bytes := storedItemBytes data, members := itemsCount data
    depth := reached above (itemsDepth data) }

/-- The totals of the values of members, without those of their keys. -/
def cloneMemberTotals (above : Nat) (data : List (ScriptString × BoundedJsonValue Number)) :
    Totals :=
  { bytes := storedItemBytes (data.map Prod.snd), members := membersCount data
    depth := reached above (membersDepth data) }

theorem max_reached (above levels more : Nat) :
    max (reached above levels) (reached above more) = reached above (max levels more) := by
  rw [reached, reached, reached]
  split <;> split <;> split <;> omega

theorem max_reached_succ (above levels : Nat) :
    max (above + 1) (reached (above + 1) levels) = reached above (levels + 1) := by
  rw [reached, reached]
  split <;> split <;> omega

theorem cloneItemTotals_cons (above : Nat) (first : BoundedJsonValue Number)
    (rest : List (BoundedJsonValue Number)) :
    cloneTotals above first + cloneItemTotals above rest =
      cloneItemTotals above (first :: rest) := by
  ext
  · rfl
  · rfl
  · exact max_reached above first.depth (itemsDepth rest)

theorem cloneMemberTotals_cons (above : Nat) (key : ScriptString) (first : BoundedJsonValue Number)
    (rest : List (ScriptString × BoundedJsonValue Number)) :
    cloneTotals above first + cloneMemberTotals above rest =
      cloneMemberTotals above ((key, first) :: rest) := by
  ext
  · rfl
  · rfl
  · exact max_reached above first.depth (membersDepth rest)

def CloneState.spent (state : CloneState Number) : Totals :=
  counting state.bytes state.members

/-- The state after a value has been copied to the target on top of `rest`. -/
def CloneState.filled (state : CloneState Number) (bytes members : Nat)
    (targets : List (JsonTarget Number)) : CloneState Number :=
  { state with bytes := state.bytes + bytes, members := state.members + members, targets }

/-- Copying the value comes to the totals of its data, which is assigned to the target on top. -/
def ClonesAs (active : List Nat) (above : Nat) (value : ProgramValue Number)
    (data : BoundedJsonValue Number) : Prop :=
  forall (key : ScriptString) (state : CloneState Number) (target : JsonTarget Number)
    (rest : List (JsonTarget Number)), state.targets = target :: rest -> state.active = active ->
      Within storedLimits state.spent ->
        Accounts storedLimits StoredValueRefusal.kind (state.spent + cloneTotals above data)
          (state.filled (storedBytes data) data.memberCount
            (assignChild target key data :: rest))
          ((cloneMachine Number).run [.value value (above + 1) key] state)

theorem clonesAs_scalar {active : List Nat} {above : Nat} {value : ProgramValue Number}
    {data : BoundedJsonValue Number} (hscalar : data.isScalar = true)
    (hvalue : forall (key : ScriptString) (state : CloneState Number),
      Within storedLimits state.spent ->
        Accounts storedLimits StoredValueRefusal.kind
          (counting (state.bytes + storedBytes data) state.members)
          ([], { state with
            bytes := state.bytes + storedBytes data
            targets := assignTop state.targets key data })
          (cloneValue value (above + 1) key state)) :
    ClonesAs active above value data := by
  have hsize := sizes_of_isScalar hscalar
  intro key state target rest htargets _ hwithin
  have htotal : state.spent + cloneTotals above data =
      counting (state.bytes + storedBytes data) state.members := by
    ext
    · rfl
    · show state.members + data.memberCount = state.members
      rw [hsize.right, Nat.add_zero]
    · show max 0 (reached above data.depth) = 0
      rw [hsize.left]
      rfl
  have hfinal := hvalue key state hwithin
  rw [htotal, StackMachine.run_singleton]
  show Accounts _ _ _ _ (cloneValue value (above + 1) key state >>= _)
  rcases hfinal with ⟨hok, hfits⟩ | ⟨failure, kind, herror, hkind, hexceeds⟩
  · refine Or.inl ⟨?_, hfits⟩
    rw [hok]
    show (cloneMachine Number).run [] _ = _
    rw [StackMachine.run_nil, CloneState.filled, hsize.right, Nat.add_zero, htargets]
    rfl
  · rw [herror]
    exact accounts_error hkind hexceeds

omit [ScriptNumber Number] in
theorem accounts_assignValue {key : ScriptString} {state : CloneState Number} {amount : Nat}
    {scalar : BoundedJsonValue Number} (h : Within storedLimits state.spent) :
    Accounts storedLimits StoredValueRefusal.kind (counting (state.bytes + amount) state.members)
      (([] : List (CloneFrame Number)), { state with
        bytes := state.bytes + amount
        targets := assignTop state.targets key scalar })
      (assignValue key amount scalar state) := by
  rw [assignValue]
  apply accounts_bind (accounts_addBytes h amount) (Nat.le_refl _) (Nat.le_refl _)
  intro hadded
  exact Or.inl ⟨rfl, hadded⟩

theorem bytes_numberText (value : Number) :
    storedBytes (.number value : BoundedJsonValue Number) = (ScriptNumber.text value).length :=
  JsonBoundaries.bytes_numberText value

theorem textBytes_bool (value : Bool) :
    textBytes (.bool value : BoundedJsonValue Number) = if value then 4 else 5 := by
  cases value with
  | true => rfl
  | false => rfl

theorem accounts_container (filled : JsonTarget Number) (own inner : Totals) {above source : Nat}
    {value : ProgramValue Number} {key : ScriptString} {state : CloneState Number}
    {target empty : JsonTarget Number} {rest : List (JsonTarget Number)}
    {children : List (ScriptString × ProgramValue Number)} {total : Totals}
    (htake : cloneValue value (above + 1) key state =
      cloneContainer value (above + 1) key state) (hsource : value.identity? = some source)
    (hfresh : source ∉ state.active) (htargets : state.targets = target :: rest)
    (hread : Accounts storedLimits StoredValueRefusal.kind
      (counting (state.bytes + own.bytes) (state.members + own.members))
      ({ members := state.members + own.members
         bytes := state.bytes + own.bytes
         children }, empty)
      (readInlineChildren value state.members state.bytes))
    (hinner : forall next : CloneState Number, next.targets = empty :: state.targets ->
      next.active = source :: state.active -> Within storedLimits next.spent ->
        Accounts storedLimits StoredValueRefusal.kind (next.spent + inner)
          (next.filled inner.bytes inner.members (filled :: state.targets))
          ((cloneMachine Number).run
            (children.map fun child => .value child.snd (above + 2) child.fst) next))
    (hdepth : own.depth = above + 1) (htotal : own + inner = total) :
    Accounts storedLimits StoredValueRefusal.kind (state.spent + total)
      (state.filled total.bytes total.members (assignChild target key filled.value :: rest))
      ((cloneMachine Number).run [.value value (above + 1) key] state) := by
  have hnew : ¬ state.active.contains source = true := fun h =>
    hfresh (List.contains_iff_mem.mp h)
  let entered : CloneState Number :=
    { active := source :: state.active
      members := state.members + own.members
      bytes := state.bytes + own.bytes
      targets := empty :: state.targets }
  have hstep : (cloneMachine Number).take (.value value (above + 1) key) state =
      if above + 1 > storedExecutionValueLimits.depth then .error .depth
      else readInlineChildren value state.members state.bytes >>= fun found =>
        .ok (cloneFrames found.fst.children (above + 2) source key,
          { active := source :: state.active
            members := found.fst.members
            bytes := found.fst.bytes
            targets := found.snd :: state.targets }) := by
    show cloneValue value (above + 1) key state = _
    rw [htake, cloneContainer, hsource]
    dsimp only
    rw [if_neg hnew]
    rfl
  have hown : Accounts storedLimits StoredValueRefusal.kind (state.spent + own)
      (cloneFrames children (above + 2) source key, entered)
      ((cloneMachine Number).take (.value value (above + 1) key) state) := by
    rw [hstep]
    split
    · next hdeep =>
      refine accounts_error rfl ⟨storedExecutionValueLimits.depth, rfl, ?_⟩
      show _ < max 0 own.depth
      rw [hdepth, Nat.zero_max]
      exact hdeep
    · next hfits =>
      rcases hread with ⟨hok, hwithin⟩ | ⟨failure, kind, herror, hkind, hexceeds⟩
      · rw [hok]
        refine Or.inl ⟨rfl, ?_⟩
        intro kind hover
        rcases hover with ⟨maximum, hlimit, hexceeds⟩
        cases kind with
        | bytes => exact hwithin .bytes ⟨maximum, hlimit, hexceeds⟩
        | members => exact hwithin .members ⟨maximum, hlimit, hexceeds⟩
        | depth =>
            cases hlimit
            have hover : storedExecutionValueLimits.depth < max 0 own.depth := hexceeds
            rw [hdepth, Nat.zero_max] at hover
            exact hfits hover
      · rw [herror]
        refine accounts_error hkind (hexceeds.mono ?_)
        cases kind with
        | bytes => exact Nat.le_refl _
        | members => exact Nat.le_refl _
        | depth => exact Nat.zero_le _
  rw [← htotal]
  apply accounts_take hown rfl
  intro hpassed
  rw [cloneFrames, StackMachine.run_append]
  rcases hinner entered rfl rfl (within_counted hpassed) with
    ⟨hok, hwithin⟩ | ⟨failure, kind, herror, hkind, hexceeds⟩
  · refine Or.inl ⟨?_, hwithin⟩
    rw [hok]
    show (cloneMachine Number).run [.exit source key] _ = _
    rw [StackMachine.run_singleton]
    show (cloneMachine Number).run [] _ = _
    rw [StackMachine.run_nil]
    show Except.ok ({ active := (source :: state.active).erase source
                      members := state.members + own.members + inner.members
                      bytes := state.bytes + own.bytes + inner.bytes
                      targets := leaveTarget key (filled :: state.targets) } :
      CloneState Number) = _
    rw [List.erase_cons_head, htargets, Nat.add_assoc, Nat.add_assoc]
    rfl
  · rw [herror]
    exact accounts_error hkind hexceeds

/-!
## Values
-/

theorem clonesAs_text {active : List Nat} {above : Nat} (text : ScriptString) :
    ClonesAs active above (.string text : ProgramValue Number) (.string text) := by
  apply clonesAs_scalar rfl
  intro key state hwithin
  have hassigned := @accounts_assignValue Number key state (storedTextCost text)
    (.string text) hwithin
  exact @accounts_text _ state.bytes state.members 0 text _
    (fun amount => assignValue key amount (.string text) state) hassigned

theorem clonesAs_number {active : List Nat} {above : Nat} {value : NumberValue Number}
    {number : Number}
    (hvalue : forall (key : ScriptString) (state : CloneState Number),
      cloneValue (.number value) (above + 1) key state =
        assignValue key (ScriptNumber.text number).length (.number number) state) :
    ClonesAs active above (.number value) (.number number) := by
  apply clonesAs_scalar rfl
  intro key state hwithin
  rw [hvalue, bytes_numberText]
  exact accounts_assignValue hwithin

theorem accounts_inlineArray {items : List (Bool × OwnProperty (ProgramValue Number))}
    {data : List (BoundedJsonValue Number)} (hdata : jsonOfItems items = some data)
    (identity members bytes : Nat) (h : Within storedLimits (counting bytes members)) :
    Accounts storedLimits StoredValueRefusal.kind
      (counting (bytes + (2 + (items.length - 1))) (members + items.length))
      ({ members := members + items.length
         bytes := bytes + (2 + (items.length - 1))
         children := itemChildren 0 items }, JsonTarget.items [])
      (readInlineChildren (.array identity false 0 0 items) members bytes) := by
  rw [readInlineChildren]
  split
  · next hlong =>
    refine accounts_error rfl ⟨storedExecutionValueLimits.members, rfl, ?_⟩
    show _ < members + items.length
    omega
  · have hread := accounts_readInlineItems hdata { members, bytes, children := [] } h
    apply accounts_bind hread (Nat.le_add_right _ _) (Nat.le_refl _)
    intro hcounted
    have hlength := length_itemChildren hdata 0
    have hpresent : (items.countP fun item => item.snd.isPresent) = items.length := by
      rw [List.countP_eq_length]
      intro item hitem
      rcases shown_of_jsonOfItems hdata hitem with ⟨value, rfl⟩
      rfl
    have hown : assertInlineOwnProperties (.array identity false 0 0 items)
        (itemChildren 0 items).length = .ok () := by
      rw [assertInlineOwnProperties, hlength, hpresent]
      simp
    show Accounts _ _ _ _ (assertInlineOwnProperties (.array identity false 0 0 items)
      (itemChildren 0 items).length >>= fun _ => _)
    rw [hown]
    show Accounts _ _ _ _ (addBytes bytes (2 + ((itemChildren 0 items).length - 1)) >>= _)
    rw [hlength]
    apply accounts_bind (accounts_addBytes hcounted _) (Nat.le_refl _) (Nat.le_refl _)
    intro hadded
    exact Or.inl ⟨rfl, hadded⟩

omit [ScriptNumber Number] in
theorem length_readMembers {members : List (ScriptString × OwnProperty (ProgramValue Number))}
    (hdata : forall member, member ∈ members -> exists value, member.snd = .data value) :
    (readMembers members).length = members.length := by
  have hkeys := congrArg List.length (keys_readMembers hdata)
  rw [List.length_map, List.length_map] at hkeys
  exact hkeys

omit [ScriptNumber Number] in
theorem accounts_inlineObject
    {keys : List (ScriptString × OwnProperty (ProgramValue Number))}
    (hdata : forall member, member ∈ keys -> exists value, member.snd = .data value)
    (identity members bytes : Nat) (h : Within storedLimits (counting bytes members)) :
    Accounts storedLimits StoredValueRefusal.kind
      (counting (bytes + (keyCosts keys + (2 + (keys.length - 1)))) (members + keys.length))
      ({ members := members + keys.length
         bytes := bytes + (keyCosts keys + (2 + (keys.length - 1)))
         children := readMembers keys }, JsonTarget.members [])
      (readInlineChildren (.object identity true false 0 keys) members bytes) := by
  have hread := accounts_readInlineMembers hdata { members, bytes, children := [] } h
  have hlength := length_readMembers hdata
  have hown : assertInlineOwnProperties (.object identity true false 0 keys)
      (readMembers keys).length = .ok () := by
    rw [assertInlineOwnProperties, hlength]
    simp
  rw [readInlineChildren, if_neg (by decide)]
  apply accounts_bind hread
  · show bytes + keyCosts keys ≤ _
    omega
  · exact Nat.le_refl _
  · intro hcounted
    show Accounts _ _ _ _ (assertInlineOwnProperties (.object identity true false 0 keys)
      (readMembers keys).length >>= fun _ => _)
    rw [hown]
    show Accounts _ _ _ _ (addBytes (bytes + keyCosts keys)
      (2 + ((readMembers keys).length - 1)) >>= _)
    rw [hlength, ← Nat.add_assoc bytes]
    apply accounts_bind (accounts_addBytes hcounted _) (Nat.le_refl _) (Nat.le_refl _)
    intro hadded
    exact Or.inl ⟨rfl, hadded⟩

theorem keyCosts_eq {members : List (ScriptString × OwnProperty (ProgramValue Number))}
    {data : List (ScriptString × BoundedJsonValue Number)}
    (hdata : jsonOfMembers members = some data) :
    keyCosts members + storedItemBytes (data.map Prod.snd) = storedMemberBytes data := by
  have hkeys := keys_of_jsonOfMembers hdata
  have hcosts : keyCosts members = (data.map fun member => storedTextCost member.fst + 1).sum := by
    have hsame := congrArg (List.map fun key => storedTextCost key + 1) hkeys
    rw [List.map_map, List.map_map] at hsame
    exact congrArg List.sum hsame
  rw [hcosts]
  clear hcosts hkeys hdata
  induction data with
  | nil => rfl
  | cons member rest ih =>
      rcases member with ⟨key, value⟩
      rw [storedMemberBytes, ← ih, List.map_cons, List.sum_cons, List.map_cons, storedItemBytes]
      dsimp only
      omega

mutual

/-- No object of the value has own names that are not enumerable. -/
def HidesNothing : ProgramValue Number -> Prop
  | .array _ _ _ _ items => ItemsHideNothing items
  | .object _ _ _ hiddenNames members => hiddenNames = 0 ∧ MembersHideNothing members
  | _ => True

def ItemsHideNothing : List (Bool × OwnProperty (ProgramValue Number)) -> Prop
  | [] => True
  | (_, .data value) :: rest => HidesNothing value ∧ ItemsHideNothing rest
  | _ :: rest => ItemsHideNothing rest

def MembersHideNothing : List (ScriptString × OwnProperty (ProgramValue Number)) -> Prop
  | [] => True
  | (_, .data value) :: rest => HidesNothing value ∧ MembersHideNothing rest
  | _ :: rest => MembersHideNothing rest

end

mutual

theorem clonesAs_value : forall (value : ProgramValue Number) {data : BoundedJsonValue Number},
    value.json? = some data -> data.Ordered -> HidesNothing value -> forall {active : List Nat}
      (above : Nat), value.IsAcyclic active -> ClonesAs active above value data
  | .null, data, hdata, _, _, active, above, _ => by
      cases hdata
      exact clonesAs_scalar rfl fun key state hwithin => accounts_assignValue hwithin
  | .bool value, data, hdata, _, _, active, above, _ => by
      cases hdata
      apply clonesAs_scalar rfl
      intro key state hwithin
      have hbytes : storedBytes (.bool value : BoundedJsonValue Number) =
          if value then 4 else 5 := textBytes_bool value
      rw [hbytes]
      exact accounts_assignValue hwithin
  | .string text, data, hdata, _, _, active, above, _ => by
      cases hdata
      exact clonesAs_text text
  | .number (.finite value), data, hdata, _, _, active, above, _ => by
      cases hdata
      exact clonesAs_number fun _ _ => rfl
  | .number .negativeZero, data, hdata, _, _, active, above, _ => by
      cases hdata
      exact clonesAs_number fun _ _ => rfl
  | .number .notFinite, _, hdata, _, _, _, _, _ => nomatch hdata
  | .unsupported _, _, hdata, _, _, _, _, _ => nomatch hdata
  | .array identity hasSymbols hiddenNames shownNames items, data, hdata, hordered, hhides, active,
      above, hacyclic => by
      rcases array_of_json hdata with ⟨rfl, rfl, rfl, others, hitems, rfl⟩
      intro key state target rest htargets hactive hwithin
      have hread := accounts_inlineArray hitems identity state.members state.bytes hwithin
      have hlength := length_of_jsonOfItems hitems
      let own : Totals :=
        { bytes := 2 + (items.length - 1), members := items.length, depth := above + 1 }
      apply accounts_container (.items others) own (cloneItemTotals (above + 1) others) rfl rfl
        (by rw [hactive]; exact hacyclic.left) htargets hread _ rfl
      · ext
        · show 2 + (items.length - 1) + storedItemBytes others = storedBytes (.array others)
          rw [storedBytes, hlength]
          omega
        · show items.length + itemsCount others = others.length + itemsCount others
          rw [hlength]
        · exact max_reached_succ above (itemsDepth others)
      · intro next hnext hentered hspent
        exact clonesAs_items items hitems hordered hhides (above + 1) hacyclic.right 0 next []
          state.targets hnext (hentered.trans (by rw [hactive])) hspent
  | .object identity isPlain hasSymbols hiddenNames members, data, hdata, hordered, hhides, active,
      above, hacyclic => by
      rcases object_of_json hdata with ⟨rfl, rfl, others, hmembers, rfl⟩
      rw [hhides.left]
      intro key state target rest htargets hactive hwithin
      have hread := accounts_inlineObject
        (fun member hmember => data_of_jsonOfMembers hmembers hmember) identity state.members
        state.bytes hwithin
      have hlength : members.length = others.length := by
        have hkeys := congrArg List.length (keys_of_jsonOfMembers hmembers)
        rwa [List.length_map, List.length_map] at hkeys
      let own : Totals :=
        { bytes := keyCosts members + (2 + (members.length - 1))
          members := members.length
          depth := above + 1 }
      apply accounts_container (.members others) own (cloneMemberTotals (above + 1) others) rfl
        rfl (by rw [hactive]; exact hacyclic.left) htargets hread _ rfl
      · ext
        · show keyCosts members + (2 + (members.length - 1)) +
            storedItemBytes (others.map Prod.snd) = storedBytes (.object others)
          have hcosts := keyCosts_eq hmembers
          rw [storedBytes, hlength]
          omega
        · show members.length + membersCount others = others.length + membersCount others
          rw [hlength]
        · exact max_reached_succ above (membersDepth others)
      · intro next hnext hentered hspent
        have hkeys := clonesAs_members members hmembers hordered.right hhides.right (above + 1)
          hacyclic.right next [] state.targets hnext (hentered.trans (by rw [hactive])) hspent
        rw [foldl_defineProperty_of_ownOrder (by rw [List.nil_append]; exact hordered.left),
          List.nil_append] at hkeys
        exact hkeys

theorem clonesAs_items : forall (items : List (Bool × OwnProperty (ProgramValue Number)))
    {data : List (BoundedJsonValue Number)}, jsonOfItems items = some data -> OrderedItems data ->
      ItemsHideNothing items -> forall {active : List Nat} (above : Nat),
        AreAcyclicItems active items ->
          forall (index : Nat) (state : CloneState Number) (held : List (BoundedJsonValue Number))
            (below : List (JsonTarget Number)), state.targets = .items held :: below ->
              state.active = active -> Within storedLimits state.spent ->
                Accounts storedLimits StoredValueRefusal.kind
                  (state.spent + cloneItemTotals above data)
                  (state.filled (storedItemBytes data) (itemsCount data)
                    (.items (held ++ data) :: below))
                  ((cloneMachine Number).run ((itemChildren index items).map fun child =>
                    .value child.snd (above + 1) child.fst) state)
  | [], data, hdata, _, _, active, above, _, index, state, held, below, htargets, _, hwithin => by
      cases hdata
      rw [List.append_nil, ← htargets]
      exact Or.inl ⟨StackMachine.run_nil _, hwithin⟩
  | (true, .data value) :: rest, data, hdata, hordered, hhides, active, above, hacyclic, index,
      state, held, below, htargets, hactive, hwithin => by
      rw [jsonOfItems] at hdata
      rcases Option.bind_eq_some_iff.mp hdata with ⟨first, hfirst, hdata⟩
      rcases Option.bind_eq_some_iff.mp hdata with ⟨others, hothers, hdata⟩
      cases hdata
      have hvalue := clonesAs_value value hfirst hordered.left hhides.left above hacyclic.left
        (scriptString (toString index)) state (.items held) below htargets hactive hwithin
      rw [← cloneItemTotals_cons, itemChildren_cons, List.map_cons]
      apply accounts_cons hvalue rfl
      intro hpassed
      let passed := state.filled (storedBytes first) first.memberCount
        (assignChild (.items held) (scriptString (toString index)) first :: below)
      have hrest := clonesAs_items rest hothers hordered.right hhides.right above hacyclic.right
        (index + 1) passed (held ++ [first]) below rfl hactive hpassed
      rw [List.append_assoc, List.singleton_append] at hrest
      have hfinal : passed.filled (storedItemBytes others) (itemsCount others)
          (.items (held ++ first :: others) :: below) =
          state.filled (storedItemBytes (first :: others)) (itemsCount (first :: others))
            (.items (held ++ first :: others) :: below) := by
        simp only [passed, CloneState.filled, storedItemBytes, itemsCount, Nat.add_assoc]
      rw [hfinal] at hrest
      exact hrest
  | (true, .accessor _) :: _, data, hdata, _, _, _, _, _, _, _, _, _, _, _, _ => by cases hdata
  | (true, .missing) :: _, data, hdata, _, _, _, _, _, _, _, _, _, _, _, _ => by cases hdata
  | (false, _) :: _, data, hdata, _, _, _, _, _, _, _, _, _, _, _, _ => by cases hdata

theorem clonesAs_members :
    forall (members : List (ScriptString × OwnProperty (ProgramValue Number)))
      {data : List (ScriptString × BoundedJsonValue Number)},
        jsonOfMembers members = some data -> OrderedMembers data -> MembersHideNothing members ->
          forall {active : List Nat} (above : Nat), AreAcyclicMembers active members ->
            forall (state : CloneState Number)
              (held : List (ScriptString × BoundedJsonValue Number))
              (below : List (JsonTarget Number)), state.targets = .members held :: below ->
                state.active = active -> Within storedLimits state.spent ->
                  Accounts storedLimits StoredValueRefusal.kind
                    (state.spent + cloneMemberTotals above data)
                    (state.filled (storedItemBytes (data.map Prod.snd)) (membersCount data)
                      (.members (data.foldl (fun result member =>
                        defineProperty member.fst member.snd result) held) :: below))
                    ((cloneMachine Number).run ((readMembers members).map fun child =>
                      .value child.snd (above + 1) child.fst) state)
  | [], data, hdata, _, _, active, above, _, state, held, below, htargets, _, hwithin => by
      cases hdata
      rw [List.foldl_nil, ← htargets]
      exact Or.inl ⟨StackMachine.run_nil _, hwithin⟩
  | (key, .data value) :: rest, data, hdata, hordered, hhides, active, above, hacyclic, state, held,
      below, htargets, hactive, hwithin => by
      rw [jsonOfMembers] at hdata
      rcases Option.bind_eq_some_iff.mp hdata with ⟨first, hfirst, hdata⟩
      rcases Option.bind_eq_some_iff.mp hdata with ⟨others, hothers, hdata⟩
      cases hdata
      have hvalue := clonesAs_value value hfirst hordered.left hhides.left above hacyclic.left key
        state (.members held) below htargets hactive hwithin
      rw [← cloneMemberTotals_cons, readMembers, List.map_cons]
      apply accounts_cons hvalue rfl
      intro hpassed
      let passed := state.filled (storedBytes first) first.memberCount
        (assignChild (.members held) key first :: below)
      have hrest := clonesAs_members rest hothers hordered.right hhides.right above hacyclic.right
        passed (defineProperty key first held) below rfl hactive hpassed
      have hfinal : passed.filled
          (storedItemBytes (others.map Prod.snd)) (membersCount others)
          (.members (others.foldl (fun result member =>
            defineProperty member.fst member.snd result) (defineProperty key first held)) ::
              below) =
          state.filled (storedItemBytes (((key, first) :: others).map Prod.snd))
            (membersCount ((key, first) :: others))
            (.members (((key, first) :: others).foldl (fun result member =>
              defineProperty member.fst member.snd result) held) :: below) := by
        simp only [passed, CloneState.filled, storedItemBytes, membersCount, Nat.add_assoc,
          List.map_cons, List.foldl_cons]
      rw [hfinal] at hrest
      exact hrest
  | (_, .accessor _) :: _, data, hdata, _, _, _, _, _, _, _, _, _, _, _ => by cases hdata
  | (_, .missing) :: _, data, hdata, _, _, _, _, _, _, _, _, _, _, _ => by cases hdata

end

end

end StoredValues
end Pertexo
