import Pertexo.Redaction.ResponseRedactor
import Pertexo.Redaction.SourceOffsets

/-!
# Views of a body and what they read

## Sources without escapes
-/

namespace Pertexo
namespace Redaction

open Library
open Values

variable {escape : Bytes -> Option EscapeToken}

theorem sourcedBytes_of_no_spans {bytes : Bytes} {tokens : List EscapeToken}
    (h : CutsInto bytes tokens) {source decoded : Nat}
    (hspans : escapeSpans source decoded tokens = []) {sourced : List SourcedByte}
    (hbytes : sourced.map SourcedByte.byte = bytes) : sourcedBytes tokens sourced = sourced := by
  induction h generalizing source decoded sourced with
  | nil => rw [List.map_eq_nil_iff.mp hbytes, sourcedBytes]
  | @literal byte rest tokens hrest ih =>
      cases sourced with
      | nil => cases hbytes
      | cons b later =>
          rcases List.cons.inj hbytes with ⟨rfl, hlater⟩
          exact congrArg (List.cons b) (ih hspans hlater)
  | @escape bytes token tokens hescape hpos hle hdecoded hrest ih =>
      rw [escapeSpans, if_pos hescape] at hspans
      cases hspans

theorem decodeSourced_of_none (hescape : ReadsEscapes escape) {sourced : List SourcedByte}
    (hspans : escapeSpans 0 0 (escapeTokens escape 0 (sourced.map SourcedByte.byte)) = []) :
    decodeSourced escape sourced = sourced := by
  have hcuts := cutsInto_escapeTokens hescape 0 (sourced.map SourcedByte.byte)
  rw [List.drop_zero] at hcuts
  exact sourcedBytes_of_no_spans hcuts hspans rfl

/-- Every escape starts with the marker. -/
def StartsWith (escape : Bytes -> Option EscapeToken) (marker : UInt8) : Prop :=
  forall bytes token, escape bytes = some token -> bytes.head? = some marker

theorem escapeSpans_of_no_marker {marker : UInt8} (h : StartsWith escape marker) {bytes : Bytes}
    (hmarker : marker ∉ bytes) (source decoded : Nat) :
    escapeSpans source decoded (escapeTokens escape 0 bytes) = [] := by
  induction bytes generalizing source decoded with
  | nil => rfl
  | cons byte rest ih =>
      rw [List.mem_cons, not_or] at hmarker
      rw [escapeTokens]
      cases hescape : escape (byte :: rest) with
      | none => exact ih hmarker.right _ _
      | some token =>
          have hhead := h _ _ hescape
          cases hhead
          exact absurd rfl hmarker.left

theorem startsWith_json : StartsWith jsonEscape 92 := by
  intro bytes token h
  unfold jsonEscape at h
  split at h
  · next unit hunit =>
    unfold unicodeEscapeUnit at hunit
    split at hunit
    · rfl
    · cases hunit
  · split at h
    · rfl
    · cases h

/-!
## The views that a body has
-/

/-- The percent-decoded bytes; only bytes with a percent sign are decoded. -/
def percentDecoded (sourced : List SourcedByte) : List SourcedByte :=
  if (sourced.map SourcedByte.byte).contains 37 then decodeSourced percentEscape sourced
  else sourced

def jsonLayer (source : Bytes) (layer : Nat) : List SourcedByte :=
  (decodeSourced jsonEscape)^[layer] (rawBytes source)

def jsonLayers (source : Bytes) : List (List SourcedByte) :=
  (List.range (jsonEscapeLayers + 1)).map (jsonLayer source)

def bodyViews (source : Bytes) : List (List SourcedByte) :=
  jsonLayers source ++ (jsonLayers source).map percentDecoded

/-!
## Decoding one view
-/

def decodedBytes (format : EscapeFormat) (sourced : List SourcedByte) : List SourcedByte :=
  match format with
  | .json => decodeSourced jsonEscape sourced
  | .percent => percentDecoded sourced

/-- The bytes that a view takes from the decoding budget. -/
def viewCharge (format : EscapeFormat) (bytes : Bytes) : Nat :=
  if bytes.contains format.marker then bytes.length else 0

theorem decodeView_spec {format : EscapeFormat} {parent : DecodedBodyView}
    {sourced : List SourcedByte} (h : Reads parent sourced) {bytesLeft : Nat}
    (hcharge : viewCharge format parent.bytes ≤ bytesLeft) :
    exists decoded, decodeView bytesLeft parent format =
        Except.ok (decoded, bytesLeft - viewCharge format parent.bytes) ∧
      match decoded with
      | none => decodedBodyView parent.bytes format = none ∧
          decodedBytes format sourced = sourced
      | some view => (exists inner, decodedBodyView parent.bytes format = some inner ∧
          view.bytes = inner.bytes) ∧ Reads view (decodedBytes format sourced) := by
  have hescape := readsEscapes_escapeAt format
  unfold decodeView viewCharge at *
  cases hmarker : parent.bytes.contains format.marker with
  | false =>
      refine ⟨none, rfl, ?_, ?_⟩
      · rw [decodedBodyView, hmarker]
        rfl
      · cases format with
        | json =>
            apply decodeSourced_of_none readsEscapes_json
            rw [← h.bytes]
            apply escapeSpans_of_no_marker startsWith_json
            rw [← List.contains_iff_mem]
            show ¬ parent.bytes.contains EscapeFormat.json.marker = true
            rw [hmarker]
            exact Bool.false_ne_true
        | percent =>
            show percentDecoded sourced = sourced
            rw [percentDecoded, ← h.bytes]
            show (if parent.bytes.contains EscapeFormat.percent.marker = true then _ else _) = _
            rw [hmarker]
            rfl
  | true =>
      rw [hmarker, if_pos rfl] at hcharge
      rw [if_neg (by simp), if_neg (Nat.not_lt.mpr hcharge), if_pos rfl]
      have hdecodes : decodedBytes format sourced = decodeSourced (escapeAt format) sourced := by
        cases format with
        | json => rfl
        | percent =>
            show percentDecoded sourced = _
            rw [percentDecoded, ← h.bytes]
            show (if parent.bytes.contains EscapeFormat.percent.marker = true then _ else _) = _
            rw [hmarker]
            rfl
      refine ⟨_, rfl, ?_⟩
      unfold decodedBodyView
      rw [hmarker, if_neg (by simp)]
      dsimp only
      cases hspans : (escapeSpans 0 0 (escapeTokens (escapeAt format) 0 parent.bytes)).isEmpty with
      | true =>
          rw [if_pos rfl]
          refine ⟨rfl, ?_⟩
          rw [hdecodes]
          apply decodeSourced_of_none hescape
          rw [← h.bytes]
          exact List.isEmpty_iff.mp hspans
      | false =>
          rw [if_neg (by simp)]
          refine ⟨⟨_, rfl, rfl⟩, ?_⟩
          rw [hdecodes]
          exact h.originalOffsets hescape (reads_decodedView hescape parent.bytes)

/-!
## All views
-/

def jsonCharge : Nat -> Bytes -> Nat
  | 0, _ => 0
  | layers + 1, bytes =>
      viewCharge .json bytes +
        match decodedBodyView bytes .json with
        | none => 0
        | some view => jsonCharge layers view.bytes

/-- The bytes of the JSON-unescaped views that are made. -/
def jsonTexts : Nat -> Bytes -> List Bytes
  | 0, _ => []
  | layers + 1, bytes =>
      match decodedBodyView bytes .json with
      | none => []
      | some view => view.bytes :: jsonTexts layers view.bytes

def percentCharge (texts : List Bytes) : Nat :=
  (texts.map (viewCharge .percent)).sum

/-- The bytes that the views of a body take from the decoding budget. -/
def decodingCharge (source : Bytes) : Nat :=
  jsonCharge jsonEscapeLayers source +
    percentCharge (source :: jsonTexts jsonEscapeLayers source)

structure ReadAll (views : List DecodedBodyView) (bodies : List (List SourcedByte)) : Prop where
  reads : forall view, view ∈ views -> exists sourced, sourced ∈ bodies ∧ Reads view sourced
  covered : forall sourced, sourced ∈ bodies -> exists view, view ∈ views ∧ Reads view sourced

def layersOf (layers : Nat) (sourced : List SourcedByte) : List (List SourcedByte) :=
  (List.range (layers + 1)).map fun layer => (decodeSourced jsonEscape)^[layer] sourced

theorem layersOf_succ (layers : Nat) (sourced : List SourcedByte) :
    layersOf (layers + 1) sourced =
      sourced :: layersOf layers (decodeSourced jsonEscape sourced) := by
  unfold layersOf
  rw [List.range_succ_eq_map, List.map_cons, List.map_map]
  rfl

theorem layersOf_fixed {sourced : List SourcedByte}
    (h : decodeSourced jsonEscape sourced = sourced) (layers : Nat) {layer : List SourcedByte}
    (hlayer : layer ∈ layersOf layers sourced) : layer = sourced := by
  rcases List.mem_map.mp hlayer with ⟨n, _, rfl⟩
  exact Function.iterate_fixed h n

theorem jsonViews_spec {layers bytesLeft : Nat} {previous : DecodedBodyView}
    {sourced : List SourcedByte} (h : Reads previous sourced)
    (hcharge : jsonCharge layers previous.bytes ≤ bytesLeft) :
    exists views, jsonViews layers bytesLeft previous =
        Except.ok (views, bytesLeft - jsonCharge layers previous.bytes) ∧
      views.map DecodedBodyView.bytes = jsonTexts layers previous.bytes ∧
      ReadAll (previous :: views) (layersOf layers sourced) := by
  have hself : forall view, view ∈ [previous] -> exists layer, layer ∈ layersOf layers sourced ∧
      Reads view layer := by
    intro view hview
    rw [List.mem_singleton.mp hview]
    exact ⟨sourced, List.mem_map.mpr ⟨0, List.mem_range.mpr (Nat.succ_pos layers), rfl⟩, h⟩
  induction layers generalizing bytesLeft previous sourced with
  | zero =>
      refine ⟨[], rfl, rfl, hself, ?_⟩
      intro layer hlayer
      rcases List.mem_map.mp hlayer with ⟨n, hn, rfl⟩
      rw [Nat.lt_one_iff.mp (List.mem_range.mp hn)]
      exact ⟨previous, List.mem_singleton_self previous, h⟩
  | succ layers ih =>
      rw [jsonCharge] at hcharge
      rcases decodeView_spec h ((Nat.le_add_right _ _).trans hcharge) with ⟨decoded, hview, hreads⟩
      rw [jsonViews, hview]
      cases decoded with
      | none =>
          rcases hreads with ⟨hnone, hsame⟩
          rw [jsonCharge, jsonTexts, hnone]
          refine ⟨[], rfl, rfl, hself, ?_⟩
          intro layer hlayer
          rw [layersOf_fixed hsame _ hlayer]
          exact ⟨previous, List.mem_singleton_self previous, h⟩
      | some view =>
          rcases hreads with ⟨⟨inner, hinner, hbytes⟩, hreads⟩
          rw [hinner] at hcharge
          rw [jsonCharge, jsonTexts, hinner]
          dsimp only at hcharge ⊢
          rw [← hbytes] at hcharge ⊢
          have hrest : jsonCharge layers view.bytes ≤
              bytesLeft - viewCharge .json previous.bytes := by omega
          rcases ih hreads hrest (by
            intro other hother
            rw [List.mem_singleton.mp hother]
            exact ⟨_, List.mem_map.mpr ⟨0, List.mem_range.mpr (Nat.succ_pos layers), rfl⟩, hreads⟩)
            with ⟨views, hviews, htexts, hall⟩
          refine ⟨view :: views, ?_, ?_, ?_, ?_⟩
          · show (jsonViews layers (bytesLeft - viewCharge .json previous.bytes) view >>= _) = _
            rw [hviews, ← Nat.sub_sub]
            rfl
          · rw [List.map_cons, htexts]
          · intro other hother
            rw [layersOf_succ]
            rcases List.mem_cons.mp hother with rfl | hlater
            · exact ⟨sourced, List.mem_cons_self .., h⟩
            · rcases hall.reads other hlater with ⟨layer, hlayer, hread⟩
              exact ⟨layer, List.mem_cons_of_mem _ hlayer, hread⟩
          · intro layer hlayer
            rw [layersOf_succ] at hlayer
            rcases List.mem_cons.mp hlayer with rfl | hlater
            · exact ⟨previous, List.mem_cons_self .., h⟩
            · rcases hall.covered layer hlater with ⟨other, hother, hread⟩
              exact ⟨other, List.mem_cons_of_mem _ hother, hread⟩

/-- A view under a format, of every reading of its parent. -/
def IsDecodedView (format : EscapeFormat) (parent view : DecodedBodyView) : Prop :=
  forall sourced, Reads parent sourced -> Reads view (decodedBytes format sourced)

theorem percentViews_spec {bytesLeft : Nat} {parents : List DecodedBodyView}
    (hparents : forall parent, parent ∈ parents -> exists sourced, Reads parent sourced)
    (hcharge : percentCharge (parents.map DecodedBodyView.bytes) ≤ bytesLeft) :
    exists views, percentViews bytesLeft parents =
        Except.ok (views, bytesLeft - percentCharge (parents.map DecodedBodyView.bytes)) ∧
      (forall view, view ∈ views -> exists parent, parent ∈ parents ∧
        IsDecodedView .percent parent view) ∧
      forall parent, parent ∈ parents ->
        (forall sourced, Reads parent sourced -> percentDecoded sourced = sourced) ∨
          exists view, view ∈ views ∧ IsDecodedView .percent parent view := by
  induction parents generalizing bytesLeft with
  | nil =>
      refine ⟨[], rfl, ?_, ?_⟩
      · intro view hview
        cases hview
      · intro parent hparent
        cases hparent
  | cons parent parents ih =>
      have hsplit : percentCharge ((parent :: parents).map DecodedBodyView.bytes) =
          viewCharge .percent parent.bytes +
            percentCharge (parents.map DecodedBodyView.bytes) := rfl
      rw [hsplit] at hcharge ⊢
      rcases hparents parent (List.mem_cons_self ..) with ⟨sourced, hsourced⟩
      have hfirst := (Nat.le_add_right _ _).trans hcharge
      rcases decodeView_spec hsourced hfirst with ⟨decoded, hview, _⟩
      rcases ih (fun other hother => hparents other (List.mem_cons_of_mem _ hother))
        (show percentCharge (parents.map DecodedBodyView.bytes) ≤
          bytesLeft - viewCharge .percent parent.bytes by omega) with
        ⟨views, hviews, hreads, hcovered⟩
      -- every reading of the parent gives the same decoded view
      have hany : forall other, Reads parent other ->
          match decoded with
          | none => percentDecoded other = other
          | some view => Reads view (percentDecoded other) := by
        intro other hother
        rcases decodeView_spec hother hfirst with ⟨again, hagain, hspec⟩
        rw [hview] at hagain
        cases hagain
        cases decoded with
        | none => exact hspec.right
        | some view => exact hspec.right
      refine ⟨decoded.toList ++ views, ?_, ?_, ?_⟩
      · rw [percentViews, hview]
        show (percentViews (bytesLeft - viewCharge .percent parent.bytes) parents >>= _) = _
        rw [hviews, ← Nat.sub_sub]
        rfl
      · intro view hmem
        rcases List.mem_append.mp hmem with hown | hlater
        · rw [Option.mem_toList] at hown
          cases hown
          exact ⟨parent, List.mem_cons_self .., hany⟩
        · rcases hreads view hlater with ⟨other, hother, hdecoded⟩
          exact ⟨other, List.mem_cons_of_mem _ hother, hdecoded⟩
      · intro other hother
        rcases List.mem_cons.mp hother with rfl | hlater
        · cases decoded with
          | none => exact Or.inl hany
          | some view => exact Or.inr ⟨view, List.mem_cons_self .., hany⟩
        · rcases hcovered other hlater with hsame | ⟨view, hmem, hdecoded⟩
          · exact Or.inl hsame
          · exact Or.inr ⟨view, List.mem_append_right _ hmem, hdecoded⟩

theorem viewsOf_spec {bytesLeft : Nat} {source : Bytes}
    (hcharge : decodingCharge source ≤ bytesLeft) :
    exists views, viewsOf bytesLeft source =
        Except.ok (views, bytesLeft - decodingCharge source) ∧
      ReadAll views (bodyViews source) := by
  unfold decodingCharge at hcharge ⊢
  have hjson : jsonCharge jsonEscapeLayers (identityView source).bytes ≤ bytesLeft :=
    (Nat.le_add_right _ _).trans hcharge
  rcases jsonViews_spec (reads_rawBytes source) hjson with ⟨layers, hlayers, htexts, hall⟩
  have hbytes : (identityView source :: layers).map DecodedBodyView.bytes =
      source :: jsonTexts jsonEscapeLayers source := congrArg (List.cons source) htexts
  rcases percentViews_spec
    (fun parent hparent => by
      rcases hall.reads parent hparent with ⟨sourced, _, hreads⟩
      exact ⟨sourced, hreads⟩)
    (show percentCharge ((identityView source :: layers).map DecodedBodyView.bytes) ≤
      bytesLeft - jsonCharge jsonEscapeLayers source by rw [hbytes]; omega) with
    ⟨decoded, hdecoded, hviews, hcovered⟩
  refine ⟨(identityView source :: layers) ++ decoded, ?_, ?_, ?_⟩
  · unfold viewsOf
    show (jsonViews jsonEscapeLayers bytesLeft (identityView source) >>= _) = _
    rw [show jsonViews jsonEscapeLayers bytesLeft (identityView source) = _ from hlayers]
    show (percentViews (bytesLeft - jsonCharge jsonEscapeLayers source)
      (identityView source :: layers) >>= _) = _
    rw [hdecoded, hbytes, ← Nat.sub_sub]
    rfl
  · intro view hview
    rcases List.mem_append.mp hview with hlayer | hpercent
    · rcases hall.reads view hlayer with ⟨sourced, hsourced, hreads⟩
      exact ⟨sourced, List.mem_append_left _ hsourced, hreads⟩
    · rcases hviews view hpercent with ⟨parent, hparent, hdecodes⟩
      rcases hall.reads parent hparent with ⟨sourced, hsourced, hreads⟩
      exact ⟨percentDecoded sourced, List.mem_append_right _ (List.mem_map_of_mem hsourced),
        hdecodes sourced hreads⟩
  · intro sourced hsourced
    rcases List.mem_append.mp hsourced with hlayer | hpercent
    · rcases hall.covered sourced hlayer with ⟨view, hview, hreads⟩
      exact ⟨view, List.mem_append_left _ hview, hreads⟩
    · rcases List.mem_map.mp hpercent with ⟨layer, hlayer, rfl⟩
      rcases hall.covered layer hlayer with ⟨parent, hparent, hreads⟩
      rcases hcovered parent hparent with hsame | ⟨view, hview, hdecodes⟩
      · rw [hsame layer hreads]
        exact ⟨parent, List.mem_append_left _ hparent, hreads⟩
      · exact ⟨view, List.mem_append_right _ hview, hdecodes layer hreads⟩

theorem isSourced_jsonLayer (source : Bytes) (layer : Nat) :
    IsSourced source.length (jsonLayer source layer) := by
  induction layer with
  | zero => exact isSourced_rawBytes source
  | succ layer ih =>
      rw [jsonLayer, Function.iterate_succ_apply']
      exact ih.decode readsEscapes_json

theorem isSourced_bodyViews {source : Bytes} {sourced : List SourcedByte}
    (h : sourced ∈ bodyViews source) : IsSourced source.length sourced := by
  rcases List.mem_append.mp h with hlayer | hpercent
  · rcases List.mem_map.mp hlayer with ⟨layer, _, rfl⟩
    exact isSourced_jsonLayer source layer
  · rcases List.mem_map.mp hpercent with ⟨_, hlayer, rfl⟩
    rcases List.mem_map.mp hlayer with ⟨layer, _, rfl⟩
    rw [percentDecoded]
    split
    · exact (isSourced_jsonLayer source layer).decode readsEscapes_percent
    · exact isSourced_jsonLayer source layer

end Redaction
end Pertexo
