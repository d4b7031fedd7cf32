import Pertexo.Redaction.DecodedBody

/-!
# Source offsets of decoded views

## Sourced bytes

A sourced byte knows the part of the body that it was decoded from.
-/

namespace Pertexo
namespace Redaction

open Values

structure SourcedByte where
  byte : UInt8
  start : Nat
  stop : Nat
deriving DecidableEq, Repr

def rawBytesFrom : Nat -> Bytes -> List SourcedByte
  | _, [] => []
  | offset, byte :: rest =>
      { byte := byte, start := offset, stop := offset + 1 } :: rawBytesFrom (offset + 1) rest

def rawBytes (source : Bytes) : List SourcedByte :=
  rawBytesFrom 0 source

def sourceStartOf (sourced : List SourcedByte) : Nat :=
  (sourced.head?.map SourcedByte.start).getD 0

def sourceStopOf (sourced : List SourcedByte) : Nat :=
  (sourced.getLast?.map SourcedByte.stop).getD 0

/-- The bytes of the tokens, each from where the bytes of its token come from. -/
def sourcedBytes : List EscapeToken -> List SourcedByte -> List SourcedByte
  | [], _ => []
  | token :: rest, sourced =>
      let taken := sourced.take token.length
      (token.decoded.map fun byte =>
        { byte := byte, start := sourceStartOf taken, stop := sourceStopOf taken }) ++
        sourcedBytes rest (sourced.drop token.length)

/-- The view reads the bytes and maps their positions to where they come from. -/
structure Reads (view : DecodedBodyView) (sourced : List SourcedByte) : Prop where
  bytes : view.bytes = sourced.map SourcedByte.byte
  starts : forall k b, sourced[k]? = some b -> view.sourceStart k = b.start
  stops : forall k b, sourced[k]? = some b -> view.sourceEnd (k + 1) = b.stop

theorem length_rawBytesFrom (offset : Nat) (bytes : Bytes) :
    (rawBytesFrom offset bytes).length = bytes.length := by
  induction bytes generalizing offset with
  | nil => rfl
  | cons byte rest ih => rw [rawBytesFrom, List.length_cons, List.length_cons, ih]

theorem byte_rawBytesFrom (offset : Nat) (bytes : Bytes) :
    (rawBytesFrom offset bytes).map SourcedByte.byte = bytes := by
  induction bytes generalizing offset with
  | nil => rfl
  | cons byte rest ih => rw [rawBytesFrom, List.map_cons, ih]

theorem getElem?_rawBytesFrom (offset k : Nat) (bytes : Bytes) :
    (rawBytesFrom offset bytes)[k]? = bytes[k]?.map fun byte =>
      { byte := byte, start := offset + k, stop := offset + k + 1 } := by
  induction bytes generalizing offset k with
  | nil => rfl
  | cons byte rest ih =>
      cases k with
      | zero => rfl
      | succ k =>
          rw [rawBytesFrom, List.getElem?_cons_succ, List.getElem?_cons_succ, ih,
            Nat.add_assoc offset 1 k, Nat.add_comm 1 k]

theorem drop_rawBytesFrom (offset n : Nat) (bytes : Bytes) :
    (rawBytesFrom offset bytes).drop n = rawBytesFrom (offset + n) (bytes.drop n) := by
  induction n generalizing offset bytes with
  | zero => rfl
  | succ n ih =>
      cases bytes with
      | nil => rfl
      | cons byte rest =>
          rw [rawBytesFrom, List.drop_succ_cons, List.drop_succ_cons, ih, Nat.add_assoc,
            Nat.add_comm 1 n]

/-!
## Tokens of a source
-/

inductive CutsInto : Bytes -> List EscapeToken -> Prop where
  | nil : CutsInto [] []
  | literal (byte : UInt8) {rest : Bytes} {tokens : List EscapeToken}
      (hrest : CutsInto rest tokens) : CutsInto (byte :: rest) (literalToken byte :: tokens)
  | escape {bytes : Bytes} {token : EscapeToken} {tokens : List EscapeToken}
      (hescape : token.isEscape = true) (hpos : 0 < token.length)
      (hle : token.length ≤ bytes.length) (hdecoded : token.decoded ≠ [])
      (hrest : CutsInto (bytes.drop token.length) tokens) : CutsInto bytes (token :: tokens)

/-- An escape is read off the bytes that it is at the start of. -/
def ReadsEscapes (escape : Bytes -> Option EscapeToken) : Prop :=
  forall bytes token, escape bytes = some token -> token.isEscape = true ∧ 0 < token.length ∧
    token.length ≤ bytes.length ∧ token.decoded ≠ []

theorem cutsInto_escapeTokens {escape : Bytes -> Option EscapeToken} (h : ReadsEscapes escape)
    (skipped : Nat) (bytes : Bytes) :
    CutsInto (bytes.drop skipped) (escapeTokens escape skipped bytes) := by
  induction bytes generalizing skipped with
  | nil =>
      rw [List.drop_nil]
      exact CutsInto.nil
  | cons byte rest ih =>
      cases skipped with
      | succ skipped => exact ih skipped
      | zero =>
          rw [List.drop_zero, escapeTokens]
          cases hescape : escape (byte :: rest) with
          | none => exact CutsInto.literal byte (ih 0)
          | some token =>
              rcases h _ token hescape with ⟨htoken, hpos, hle, hdecoded⟩
              refine CutsInto.escape htoken hpos hle hdecoded ?_
              have hrest := ih (token.length - 1)
              rw [← Nat.succ_pred_eq_of_pos hpos, List.drop_succ_cons]
              exact hrest

theorem readsEscapes_percent : ReadsEscapes percentEscape := by
  intro bytes token h
  unfold percentEscape at h
  split at h
  · next a b rest =>
    cases ha : hexByteValue a with
    | none =>
        rw [ha] at h
        cases h
    | some high =>
        cases hb : hexByteValue b with
        | none =>
            rw [ha, hb] at h
            cases h
        | some low =>
            rw [ha, hb] at h
            cases h
            exact ⟨rfl, Nat.succ_pos 2, by simp [escapeToken], by simp [escapeToken]⟩
  · cases h
    exact ⟨rfl, by decide, by simp [escapeToken], by simp [escapeToken]⟩
  · cases h

theorem length_of_unicodeEscapeUnit {bytes : Bytes} {unit : UInt16}
    (h : unicodeEscapeUnit bytes = some unit) : 6 ≤ bytes.length := by
  unfold unicodeEscapeUnit at h
  split at h
  · simp
  · cases h

theorem utf8EncodeChar_ne_nil (c : Char) : String.utf8EncodeChar c ≠ [] := by
  intro h
  have hlength := congrArg List.length h
  rw [String.length_utf8EncodeChar] at hlength
  have hpos := c.utf8Size_pos
  rw [hlength] at hpos
  cases hpos

theorem codePointBytes_ne_nil (point : CodePoint) : codePointBytes point ≠ [] := by
  cases point with
  | char c => exact utf8EncodeChar_ne_nil c
  | lone unit => exact List.cons_ne_nil _ _

theorem utf8Bytes_ne_nil {text : ScriptString} (h : text ≠ []) : utf8Bytes text ≠ [] := by
  have hpoints : codePoints text ≠ [] := by
    cases text with
    | nil => exact absurd rfl h
    | cons unit rest =>
        cases rest with
        | nil => exact List.cons_ne_nil _ _
        | cons next rest =>
            rw [codePoints]
            split
            · exact List.cons_ne_nil _ _
            · exact List.cons_ne_nil _ _
  intro hnil
  rw [utf8Bytes, List.flatMap_eq_nil_iff] at hnil
  rcases List.exists_mem_of_ne_nil _ hpoints with ⟨point, hpoint⟩
  exact codePointBytes_ne_nil point (hnil point hpoint)

theorem readsEscapes_json : ReadsEscapes jsonEscape := by
  intro bytes token h
  unfold jsonEscape at h
  split at h
  · next unit hunit =>
    have hlength := length_of_unicodeEscapeUnit hunit
    dsimp only at h
    split at h
    · next low hlow =>
      cases h
      rw [Option.filter_eq_some_iff, Option.filter_eq_some_iff] at hlow
      have hnext := length_of_unicodeEscapeUnit hlow.left.left
      rw [List.length_drop] at hnext
      refine ⟨rfl, Nat.succ_pos 11, ?_, utf8Bytes_ne_nil (List.cons_ne_nil _ _)⟩
      show 12 ≤ bytes.length
      omega
    · cases h
      exact ⟨rfl, Nat.succ_pos 5, hlength, utf8Bytes_ne_nil (List.cons_ne_nil _ _)⟩
  · split at h
    · next byte rest =>
      rcases Option.map_eq_some_iff.mp h with ⟨unit, _, rfl⟩
      exact ⟨rfl, Nat.succ_pos 1, by simp [escapeToken], utf8Bytes_ne_nil (List.cons_ne_nil _ _)⟩
    · cases h

theorem readsEscapes_escapeAt (format : EscapeFormat) : ReadsEscapes (escapeAt format) := by
  cases format with
  | json => exact readsEscapes_json
  | percent => exact readsEscapes_percent

/-!
## Spans of escapes
-/

variable {bytes : Bytes} {tokens : List EscapeToken}

theorem start_le_of_mem_escapeSpans {source decoded : Nat} {span : EscapeSpan}
    (h : span ∈ escapeSpans source decoded tokens) : decoded ≤ span.start := by
  induction tokens generalizing source decoded with
  | nil => cases h
  | cons token rest ih =>
      rw [escapeSpans] at h
      split at h
      · rcases List.mem_cons.mp h with rfl | hlater
        · exact Nat.le_refl _
        · exact (Nat.le_add_right _ _).trans (ih hlater)
      · exact (Nat.le_add_right _ _).trans (ih h)

/-- The search stops between the spans that start up to the position and the others. -/
theorem searchSpans_spec {front back : List EscapeSpan} {position : Nat}
    (hfront : forall span, span ∈ front -> span.start ≤ position)
    (hback : forall span, span ∈ back -> position < span.start) {fuel low high : Nat}
    (hfuel : high ≤ low + fuel) (hlow : low ≤ front.length) (hhigh : front.length ≤ high)
    (hlength : high ≤ (front ++ back).length) :
    searchSpans (front ++ back) position fuel low high = front.length := by
  induction fuel generalizing low high with
  | zero =>
      show low = front.length
      omega
  | succ fuel ih =>
      rw [searchSpans]
      split
      · next hlt =>
        dsimp only
        have hmiddle : (low + high) / 2 < (front ++ back).length := by omega
        split
        · next hstarts =>
          apply ih _ _ hhigh hlength
          · omega
          · by_contra habove
            have hle : front.length ≤ (low + high) / 2 := by omega
            rw [List.getElem?_append_right hle] at hstarts
            cases hspan : back[(low + high) / 2 - front.length]? with
            | none =>
                rw [hspan] at hstarts
                cases hstarts
            | some span =>
                rw [hspan, Option.any_some, decide_eq_true_eq] at hstarts
                have hafter := hback span (List.mem_of_getElem? hspan)
                exact absurd hstarts (Nat.not_le.mpr hafter)
        · next hstarts =>
          apply ih _ hlow _ _
          · omega
          · by_contra hbelow
            have hin : (low + high) / 2 < front.length := by omega
            rw [List.getElem?_append_left hin, List.getElem?_eq_getElem hin] at hstarts
            apply hstarts
            rw [Option.any_some]
            exact decide_eq_true (hfront _ (List.getElem_mem hin))
          · omega
      · omega

theorem lastSpanBefore_append {front back : List EscapeSpan} {position : Nat}
    (hfront : forall span, span ∈ front -> span.start ≤ position)
    (hback : forall span, span ∈ back -> position < span.start) :
    lastSpanBefore (front ++ back) position = front.getLast? := by
  unfold lastSpanBefore
  rw [searchSpans_spec hfront hback (by omega) (Nat.zero_le _)
    (by rw [List.length_append]; exact Nat.le_add_right _ _) (Nat.le_refl _)]
  rcases List.eq_nil_or_concat front with rfl | ⟨init, last, rfl⟩
  · rfl
  · rw [List.concat_eq_append, List.length_append, List.length_singleton, List.getLast?_concat]
    show ((init ++ [last]) ++ back)[init.length]? = some last
    rw [List.append_assoc, List.getElem?_append_right (Nat.le_refl _), Nat.sub_self]
    rfl

/-!
## Positions of decoded bytes
-/

/-- From the decoded offset on, positions run along with the source. -/
def IsAligned (last : Option EscapeSpan) (source decoded : Nat) : Prop :=
  forall k atEnd, positionAfter last (decoded + k) atEnd = source + k + Bool.toNat atEnd

theorem isAligned_start : IsAligned none 0 0 := by
  intro k atEnd
  rfl

theorem IsAligned.next {last : Option EscapeSpan} {source decoded : Nat}
    (h : IsAligned last source decoded) : IsAligned last (source + 1) (decoded + 1) := by
  intro k atEnd
  rw [Nat.add_assoc decoded, Nat.add_comm 1 k, h (k + 1) atEnd]
  omega

theorem isAligned_escape (source decoded length count : Nat) :
    IsAligned
      (some
        { start := decoded
          stop := decoded + count
          sourceStart := source
          sourceStop := source + length })
      (source + length) (decoded + count) := by
  intro k atEnd
  rw [positionAfter, if_neg (by dsimp only; omega)]
  dsimp only
  omega

theorem sourceStartOf_take {offset n : Nat} (hpos : 0 < n) (hle : n ≤ bytes.length) :
    sourceStartOf ((rawBytesFrom offset bytes).take n) = offset := by
  cases bytes with
  | nil => exact absurd (Nat.lt_of_lt_of_le hpos hle) (Nat.lt_irrefl 0)
  | cons byte rest =>
      cases n with
      | zero => cases hpos
      | succ n => rfl

theorem getLast?_take {α : Type} {items : List α} {n : Nat} (hpos : 0 < n)
    (hle : n ≤ items.length) : (items.take n).getLast? = items[n - 1]? := by
  rw [List.getLast?_eq_getElem?, List.length_take, Nat.min_eq_left hle,
    List.getElem?_take_of_lt (Nat.sub_lt hpos Nat.one_pos)]

theorem sourceStopOf_take {offset n : Nat} (hpos : 0 < n) (hle : n ≤ bytes.length) :
    sourceStopOf ((rawBytesFrom offset bytes).take n) = offset + n := by
  have hlength : n ≤ (rawBytesFrom offset bytes).length := by
    rw [length_rawBytesFrom]
    exact hle
  have hlt : n - 1 < bytes.length := by omega
  rw [sourceStopOf, getLast?_take hpos hlength, getElem?_rawBytesFrom,
    List.getElem?_eq_getElem hlt]
  show offset + (n - 1) + 1 = offset + n
  omega

theorem exists_split_escapeSpans (h : CutsInto bytes tokens) {earlier : List EscapeSpan}
    {source decoded : Nat} (hearlier : forall span, span ∈ earlier -> span.start ≤ decoded)
    (haligned : IsAligned earlier.getLast? source decoded) :
    forall k b, (sourcedBytes tokens (rawBytesFrom source bytes))[k]? = some b ->
      exists front back, earlier ++ escapeSpans source decoded tokens = front ++ back ∧
        (forall span, span ∈ front -> span.start ≤ decoded + k) ∧
        (forall span, span ∈ back -> decoded + k < span.start) ∧
        positionAfter front.getLast? (decoded + k) false = b.start ∧
        positionAfter front.getLast? (decoded + k) true = b.stop := by
  induction h generalizing earlier source decoded with
  | nil =>
      intro k b hb
      cases hb
  | @literal byte rest tokens hrest ih =>
      intro k b hb
      cases k with
      | zero =>
          cases hb
          refine ⟨earlier, escapeSpans (source + 1) (decoded + 1) tokens, rfl, hearlier, ?_,
            haligned 0 false, haligned 0 true⟩
          exact fun span hspan => start_le_of_mem_escapeSpans hspan
      | succ k =>
          have hlater : forall span, span ∈ earlier -> span.start ≤ decoded + 1 :=
            fun span hspan => (hearlier span hspan).trans (Nat.le_succ decoded)
          have hfound := ih hlater haligned.next k b hb
          rw [Nat.add_assoc, Nat.add_comm 1 k] at hfound
          exact hfound
  | @escape bytes token tokens hescape hpos hle hdecoded hrest ih =>
      intro k b hb
      have hspans : escapeSpans source decoded (token :: tokens) =
          { start := decoded
            stop := decoded + token.decoded.length
            sourceStart := source
            sourceStop := source + token.length } ::
            escapeSpans (source + token.length) (decoded + token.decoded.length) tokens := by
        rw [escapeSpans]
        exact if_pos hescape
      rw [hspans]
      rw [sourcedBytes, sourceStartOf_take hpos hle, sourceStopOf_take hpos hle,
        drop_rawBytesFrom] at hb
      rcases Nat.lt_or_ge k token.decoded.length with hin | hafter
      · rw [List.getElem?_append_left (by rw [List.length_map]; exact hin), List.getElem?_map,
          List.getElem?_eq_getElem hin] at hb
        cases hb
        refine ⟨earlier ++ [_], _, List.append_cons .., ?_, ?_, ?_, ?_⟩
        · intro span hspan
          rcases List.mem_append.mp hspan with hold | hnew
          · exact (hearlier span hold).trans (Nat.le_add_right _ _)
          · rw [List.mem_singleton.mp hnew]
            exact Nat.le_add_right _ _
        · intro span hspan
          have hstart := start_le_of_mem_escapeSpans hspan
          omega
        · rw [List.getLast?_concat, positionAfter, if_pos (Nat.add_lt_add_left hin decoded)]
          rfl
        · rw [List.getLast?_concat, positionAfter, if_pos (Nat.add_lt_add_left hin decoded)]
          rfl
      · rw [List.getElem?_append_right (by rw [List.length_map]; exact hafter),
          List.length_map] at hb
        have hlater : forall span, span ∈ earlier ++
            [{ start := decoded
               stop := decoded + token.decoded.length
               sourceStart := source
               sourceStop := source + token.length }] ->
            span.start ≤ decoded + token.decoded.length := by
          intro span hspan
          rcases List.mem_append.mp hspan with hold | hnew
          · exact (hearlier span hold).trans (Nat.le_add_right _ _)
          · rw [List.mem_singleton.mp hnew]
            exact Nat.le_add_right _ _
        have hnext := ih hlater (by
          rw [List.getLast?_concat]
          exact isAligned_escape source decoded token.length token.decoded.length) _ b hb
        rw [Nat.add_assoc, Nat.add_sub_cancel' hafter, List.append_assoc] at hnext
        exact hnext

theorem byte_sourcedBytes (tokens : List EscapeToken) (sourced : List SourcedByte) :
    (sourcedBytes tokens sourced).map SourcedByte.byte =
      tokens.flatMap EscapeToken.decoded := by
  induction tokens generalizing sourced with
  | nil => rfl
  | cons token rest ih =>
      rw [sourcedBytes, List.map_append, List.map_map, ih, List.flatMap_cons]
      congr 1
      exact List.map_id _

/-!
## Sources of sources
-/

/-- A byte decoded from other bytes comes from where these come from. -/
def through (sourced : List SourcedByte) (b : SourcedByte) : SourcedByte :=
  { byte := b.byte
    start := (sourced[b.start]?.map SourcedByte.start).getD 0
    stop := (sourced[b.stop - 1]?.map SourcedByte.stop).getD 0 }

theorem sourcedBytes_eq_through (h : CutsInto bytes tokens) {sourced : List SourcedByte}
    {offset : Nat} (hbytes : (sourced.drop offset).map SourcedByte.byte = bytes) :
    sourcedBytes tokens (sourced.drop offset) =
      (sourcedBytes tokens (rawBytesFrom offset bytes)).map (through sourced) := by
  induction h generalizing offset with
  | nil => rfl
  | @literal byte rest tokens hrest ih =>
      have hdrop : sourced.drop offset =
          (sourced.drop offset).head?.toList ++ sourced.drop (offset + 1) := by
        rw [← List.tail_drop]
        cases sourced.drop offset with
        | nil => rfl
        | cons b later => rfl
      have hrestBytes : (sourced.drop (offset + 1)).map SourcedByte.byte = rest := by
        rw [← List.tail_drop, List.map_tail, hbytes]
        rfl
      have hget : sourced[offset]? = (sourced.drop offset).head? := (List.head?_drop).symm
      cases hhead : sourced.drop offset with
      | nil =>
          rw [hhead] at hbytes
          cases hbytes
      | cons b later =>
          rw [hhead] at hbytes hget
          have hbyte : b.byte = byte := (List.cons.inj hbytes).left
          have hlater : sourced.drop (offset + 1) = later := by
            rw [← List.tail_drop, hhead]
            rfl
          have hnext := ih hrestBytes
          rw [hlater] at hnext
          show { byte := byte, start := b.start, stop := b.stop } :: sourcedBytes tokens later =
            through sourced { byte := byte, start := offset, stop := offset + 1 } ::
              (sourcedBytes tokens (rawBytesFrom (offset + 1) rest)).map (through sourced)
          rw [hnext, through]
          dsimp only
          rw [Nat.add_sub_cancel, hget]
          rfl
  | @escape bytes token tokens hescape hpos hle hdecoded hrest ih =>
      have hlength : bytes.length = sourced.length - offset := by
        rw [← hbytes, List.length_map, List.length_drop]
      have hrestBytes : (sourced.drop (offset + token.length)).map SourcedByte.byte =
          bytes.drop token.length := by
        rw [← List.drop_drop, List.map_drop, hbytes]
      have hnext := ih hrestBytes
      rw [sourcedBytes, sourcedBytes, List.map_append, List.drop_drop, drop_rawBytesFrom, hnext,
        List.map_map, sourceStartOf_take hpos hle, sourceStopOf_take hpos hle]
      congr 1
      apply List.map_congr_left
      intro byte _
      have hstart : sourceStartOf ((sourced.drop offset).take token.length) =
          (sourced[offset]?.map SourcedByte.start).getD 0 := by
        rw [sourceStartOf, List.head?_take, if_neg (Nat.pos_iff_ne_zero.mp hpos), List.head?_drop]
      have hstop : sourceStopOf ((sourced.drop offset).take token.length) =
          (sourced[offset + token.length - 1]?.map SourcedByte.stop).getD 0 := by
        rw [sourceStopOf, getLast?_take hpos (by rw [List.length_drop, ← hlength]; exact hle),
          List.getElem?_drop, Nat.add_sub_assoc hpos]
      rw [hstart, hstop]
      rfl

/-- The bytes come from parts of a body of the given length, in order. -/
structure IsSourced (length : Nat) (sourced : List SourcedByte) : Prop where
  bounds : forall b, b ∈ sourced -> b.start < b.stop ∧ b.stop ≤ length
  ordered : sourced.Pairwise fun left right => left.start ≤ right.start ∧ left.stop ≤ right.stop

theorem isSourced_from (h : CutsInto bytes tokens) (offset : Nat) :
    IsSourced (offset + bytes.length) (sourcedBytes tokens (rawBytesFrom offset bytes)) ∧
      forall b, b ∈ sourcedBytes tokens (rawBytesFrom offset bytes) -> offset ≤ b.start := by
  induction h generalizing offset with
  | nil =>
      refine ⟨⟨?_, List.Pairwise.nil⟩, ?_⟩
      · intro b hb
        cases hb
      · intro b hb
        cases hb
  | @literal byte rest tokens hrest ih =>
      rcases ih (offset + 1) with ⟨hsourced, hstarts⟩
      rw [Nat.add_assoc, Nat.add_comm 1] at hsourced
      have hhead : sourcedBytes (literalToken byte :: tokens) (rawBytesFrom offset (byte :: rest)) =
          { byte := byte, start := offset, stop := offset + 1 } ::
            sourcedBytes tokens (rawBytesFrom (offset + 1) rest) := rfl
      rw [hhead, List.length_cons]
      refine ⟨⟨?_, ?_⟩, ?_⟩
      · intro b hb
        rcases List.mem_cons.mp hb with rfl | hlater
        · exact ⟨Nat.lt_succ_self offset, by dsimp only; omega⟩
        · exact hsourced.bounds b hlater
      · rw [List.pairwise_cons]
        refine ⟨?_, hsourced.ordered⟩
        intro b hb
        have hstart := hstarts b hb
        have hstop := (hsourced.bounds b hb).left
        constructor
        · exact Nat.le_of_succ_le hstart
        · exact hstart.trans (Nat.le_of_lt hstop)
      · intro b hb
        rcases List.mem_cons.mp hb with rfl | hlater
        · exact Nat.le_refl offset
        · exact Nat.le_of_succ_le (hstarts b hlater)
  | @escape bytes token tokens hescape hpos hle hdecoded hrest ih =>
      rcases ih (offset + token.length) with ⟨hsourced, hstarts⟩
      rw [List.length_drop, Nat.add_assoc, Nat.add_sub_cancel' hle] at hsourced
      rw [sourcedBytes, sourceStartOf_take hpos hle, sourceStopOf_take hpos hle, drop_rawBytesFrom]
      have hown : forall b, b ∈ token.decoded.map (fun byte =>
            ({ byte := byte, start := offset, stop := offset + token.length } : SourcedByte)) ->
          b.start = offset ∧ b.stop = offset + token.length := by
        intro b hb
        rcases List.mem_map.mp hb with ⟨byte, _, rfl⟩
        exact ⟨rfl, rfl⟩
      refine ⟨⟨?_, ?_⟩, ?_⟩
      · intro b hb
        rcases List.mem_append.mp hb with hin | hlater
        · rcases hown b hin with ⟨hstart, hstop⟩
          rw [hstart, hstop]
          omega
        · exact hsourced.bounds b hlater
      · rw [List.pairwise_append]
        refine ⟨?_, hsourced.ordered, ?_⟩
        · apply List.pairwise_of_forall_mem_list
          intro left hleft right hright
          rcases hown left hleft with ⟨hstart, hstop⟩
          rcases hown right hright with ⟨hstart', hstop'⟩
          rw [hstart, hstop, hstart', hstop']
          exact ⟨Nat.le_refl _, Nat.le_refl _⟩
        · intro left hleft right hright
          rcases hown left hleft with ⟨hstart, hstop⟩
          have hafter := hstarts right hright
          have hbound := (hsourced.bounds right hright).left
          rw [hstart, hstop]
          exact ⟨(Nat.le_add_right _ _).trans hafter, hafter.trans (Nat.le_of_lt hbound)⟩
      · intro b hb
        rcases List.mem_append.mp hb with hin | hlater
        · exact (hown b hin).left.ge
        · exact (Nat.le_add_right _ _).trans (hstarts b hlater)

theorem isSourced_rawBytes (source : Bytes) : IsSourced source.length (rawBytes source) := by
  have hcuts : CutsInto source (source.map literalToken) := by
    induction source with
    | nil => exact CutsInto.nil
    | cons byte rest ih => exact CutsInto.literal byte ih
  have hsame : forall offset bytes,
      sourcedBytes (bytes.map literalToken) (rawBytesFrom offset bytes) =
        rawBytesFrom offset bytes := by
    intro offset bytes
    induction bytes generalizing offset with
    | nil => rfl
    | cons byte rest ih => exact congrArg (List.cons _) (ih (offset + 1))
  have hsourced := (isSourced_from hcuts 0).left
  rw [Nat.zero_add, hsame] at hsourced
  exact hsourced

theorem IsSourced.le {length : Nat} {sourced : List SourcedByte} (h : IsSourced length sourced)
    {i j : Nat} (hle : i ≤ j) {left right : SourcedByte} (hleft : sourced[i]? = some left)
    (hright : sourced[j]? = some right) :
    left.start ≤ right.start ∧ left.stop ≤ right.stop := by
  rcases Nat.eq_or_lt_of_le hle with rfl | hlt
  · cases hleft.symm.trans hright
    exact ⟨Nat.le_refl _, Nat.le_refl _⟩
  · rcases List.getElem?_eq_some_iff.mp hleft with ⟨hi, rfl⟩
    rcases List.getElem?_eq_some_iff.mp hright with ⟨hj, rfl⟩
    exact List.pairwise_iff_getElem.mp h.ordered i j hi hj hlt

theorem through_eq {sourced : List SourcedByte} {b : SourcedByte}
    (hlt : b.start < b.stop) (hle : b.stop ≤ sourced.length) :
    exists first last, sourced[b.start]? = some first ∧ sourced[b.stop - 1]? = some last ∧
      through sourced b = { byte := b.byte, start := first.start, stop := last.stop } := by
  have hfirst : b.start < sourced.length := hlt.trans_le hle
  have hlast : b.stop - 1 < sourced.length := by omega
  refine ⟨sourced[b.start], sourced[b.stop - 1], List.getElem?_eq_getElem hfirst,
    List.getElem?_eq_getElem hlast, ?_⟩
  rw [through, List.getElem?_eq_getElem hfirst, List.getElem?_eq_getElem hlast]
  rfl

theorem IsSourced.through {length : Nat} {sourced inner : List SourcedByte}
    (h : IsSourced length sourced) (hinner : IsSourced sourced.length inner) :
    IsSourced length (inner.map (through sourced)) where
  bounds := by
    intro b hb
    rcases List.mem_map.mp hb with ⟨origin, horigin, rfl⟩
    rcases hinner.bounds origin horigin with ⟨hlt, hle⟩
    rcases through_eq hlt hle with ⟨first, last, hfirst, hlast, heq⟩
    rw [heq]
    have hordered := (h.le (Nat.le_sub_one_of_lt hlt) hfirst hlast).left
    have hbounds := h.bounds last (List.mem_of_getElem? hlast)
    exact ⟨hordered.trans_lt hbounds.left, hbounds.right⟩
  ordered := by
    rw [List.pairwise_map]
    apply hinner.ordered.imp_of_mem
    intro left right hleft hright hordered
    rcases hinner.bounds left hleft with ⟨hlt, hle⟩
    rcases hinner.bounds right hright with ⟨hlt', hle'⟩
    rcases through_eq hlt hle with ⟨first, last, hfirst, hlast, heq⟩
    rcases through_eq hlt' hle' with ⟨first', last', hfirst', hlast', heq'⟩
    rw [heq, heq']
    exact ⟨(h.le hordered.left hfirst hfirst').left,
      (h.le (Nat.sub_le_sub_right hordered.right 1) hlast hlast').right⟩

/-!
## Decoded bytes
-/

/-- The bytes under one more layer of escapes. -/
def decodeSourced (escape : Bytes -> Option EscapeToken) (sourced : List SourcedByte) :
    List SourcedByte :=
  sourcedBytes (escapeTokens escape 0 (sourced.map SourcedByte.byte)) sourced

variable {escape : Bytes -> Option EscapeToken}

theorem decodeSourced_eq_through (hescape : ReadsEscapes escape) (sourced : List SourcedByte) :
    decodeSourced escape sourced =
      (decodeSourced escape (rawBytes (sourced.map SourcedByte.byte))).map (through sourced) := by
  have hcuts := cutsInto_escapeTokens hescape 0 (sourced.map SourcedByte.byte)
  rw [List.drop_zero] at hcuts
  have hbytes : (sourced.drop 0).map SourcedByte.byte = sourced.map SourcedByte.byte := rfl
  have heq := sourcedBytes_eq_through hcuts hbytes
  rw [decodeSourced, decodeSourced, rawBytes, byte_rawBytesFrom]
  exact heq

theorem isSourced_decodeRaw (hescape : ReadsEscapes escape) (source : Bytes) :
    IsSourced source.length (decodeSourced escape (rawBytes source)) := by
  have hcuts := cutsInto_escapeTokens hescape 0 source
  rw [List.drop_zero] at hcuts
  have hsourced := (isSourced_from hcuts 0).left
  rw [Nat.zero_add] at hsourced
  rw [decodeSourced, rawBytes, byte_rawBytesFrom]
  exact hsourced

theorem IsSourced.decode (hescape : ReadsEscapes escape) {length : Nat}
    {sourced : List SourcedByte} (h : IsSourced length sourced) :
    IsSourced length (decodeSourced escape sourced) := by
  have hinner := isSourced_decodeRaw hescape (sourced.map SourcedByte.byte)
  rw [List.length_map] at hinner
  rw [decodeSourced_eq_through hescape]
  exact h.through hinner

/-- The view of the decoded bytes reads them, with the positions in the source. -/
theorem reads_decodedView (hescape : ReadsEscapes escape) (source : Bytes) :
    Reads
      { bytes := (escapeTokens escape 0 source).flatMap EscapeToken.decoded
        sourceStart := fun position =>
          sourcePosition (escapeSpans 0 0 (escapeTokens escape 0 source)) position false
        sourceEnd := fun position =>
          sourcePosition (escapeSpans 0 0 (escapeTokens escape 0 source)) (position - 1) true }
      (decodeSourced escape (rawBytes source)) := by
  have hcuts := cutsInto_escapeTokens hescape 0 source
  rw [List.drop_zero] at hcuts
  have hnone : forall span, span ∈ ([] : List EscapeSpan) -> span.start ≤ 0 := by
    intro span hspan
    cases hspan
  have hplaces := exists_split_escapeSpans hcuts hnone isAligned_start
  rw [decodeSourced, rawBytes, byte_rawBytesFrom]
  constructor
  · exact (byte_sourcedBytes _ _).symm
  · intro k b hb
    rcases hplaces k b hb with ⟨front, back, hsplit, hfront, hback, hstart, _⟩
    rw [List.nil_append] at hsplit
    rw [Nat.zero_add] at hfront hback hstart
    show sourcePosition _ k false = b.start
    rw [sourcePosition, hsplit, lastSpanBefore_append hfront hback, hstart]
  · intro k b hb
    rcases hplaces k b hb with ⟨front, back, hsplit, hfront, hback, _, hstop⟩
    rw [List.nil_append] at hsplit
    rw [Nat.zero_add] at hfront hback hstop
    show sourcePosition _ (k + 1 - 1) true = b.stop
    rw [Nat.add_sub_cancel, sourcePosition, hsplit, lastSpanBefore_append hfront hback, hstop]

theorem reads_rawBytes (source : Bytes) :
    Reads
      { bytes := source
        sourceStart := fun position => position
        sourceEnd := fun position => position }
      (rawBytes source) where
  bytes := (byte_rawBytesFrom 0 source).symm
  starts := by
    intro k b hb
    rw [rawBytes, getElem?_rawBytesFrom] at hb
    rcases Option.map_eq_some_iff.mp hb with ⟨byte, _, rfl⟩
    exact (Nat.zero_add k).symm
  stops := by
    intro k b hb
    rw [rawBytes, getElem?_rawBytesFrom] at hb
    rcases Option.map_eq_some_iff.mp hb with ⟨byte, _, rfl⟩
    show k + 1 = 0 + k + 1
    rw [Nat.zero_add]

theorem Reads.originalOffsets {parent decoded : DecodedBodyView} {sourced : List SourcedByte}
    (hescape : ReadsEscapes escape) (h : Reads parent sourced)
    (hdecoded : Reads decoded (decodeSourced escape (rawBytes parent.bytes))) :
    Reads (originalOffsets parent decoded) (decodeSourced escape sourced) := by
  have hinner := isSourced_decodeRaw hescape parent.bytes
  rw [decodeSourced_eq_through hescape, ← h.bytes]
  rw [h.bytes, List.length_map, ← h.bytes] at hinner
  constructor
  · rw [List.map_map]
    exact hdecoded.bytes
  · intro k b hb
    rw [List.getElem?_map] at hb
    rcases Option.map_eq_some_iff.mp hb with ⟨origin, horigin, rfl⟩
    rcases hinner.bounds origin (List.mem_of_getElem? horigin) with ⟨hlt, hle⟩
    rcases through_eq hlt hle with ⟨first, last, hfirst, _, heq⟩
    show parent.sourceStart (decoded.sourceStart k) = _
    rw [hdecoded.starts k origin horigin, heq]
    exact h.starts origin.start first hfirst
  · intro k b hb
    rw [List.getElem?_map] at hb
    rcases Option.map_eq_some_iff.mp hb with ⟨origin, horigin, rfl⟩
    rcases hinner.bounds origin (List.mem_of_getElem? horigin) with ⟨hlt, hle⟩
    rcases through_eq hlt hle with ⟨first, last, _, hlast, heq⟩
    show parent.sourceEnd (decoded.sourceEnd (k + 1)) = _
    rw [hdecoded.stops k origin horigin, heq]
    have hpos : 0 < origin.stop := Nat.zero_lt_of_lt hlt
    have hstop := h.stops (origin.stop - 1) last hlast
    rw [Nat.sub_add_cancel hpos] at hstop
    exact hstop

end Redaction
end Pertexo
