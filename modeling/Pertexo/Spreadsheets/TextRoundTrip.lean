import Pertexo.Spreadsheets.Cells

/-!
# What reading does to written text

## Escape runs
-/

namespace Pertexo
namespace Spreadsheets

open Library Values

variable {code : HexCode} {text rest : ScriptString} {unit : UInt16}

theorem hexDigit?_eq_some_iff {digit : HexDigit} :
    hexDigit? unit = some digit ↔ unit = digit.val := by
  rw [hexDigit?]
  constructor
  · intro h
    split at h
    · rw [← Option.some.inj h]
    · cases h
  · rintro rfl
    rw [dif_pos digit.property]

theorem escapeRun_eq_some_iff :
    escapeRun text = some code ↔ exists rest, text = 0x5F :: (code.body ++ 0x5F :: rest) := by
  constructor
  · intro h
    rw [escapeRun.eq_def] at h
    split at h
    · next underscore x first second third fourth close rest =>
      split at h
      · next hunits =>
        rcases hunits with ⟨rfl, rfl, rfl⟩
        rcases Option.bind_eq_some_iff.mp h with ⟨a, ha, h⟩
        rcases Option.bind_eq_some_iff.mp h with ⟨b, hb, h⟩
        rcases Option.bind_eq_some_iff.mp h with ⟨c, hc, h⟩
        rcases Option.bind_eq_some_iff.mp h with ⟨d, hd, h⟩
        rw [hexDigit?_eq_some_iff] at ha hb hc hd
        cases h
        rw [ha, hb, hc, hd]
        exact ⟨rest, rfl⟩
      · cases h
    · cases h
  · rintro ⟨rest, rfl⟩
    have hdigit : forall digit : HexDigit, hexDigit? digit.val = some digit :=
      fun digit => hexDigit?_eq_some_iff.mpr rfl
    simp [escapeRun, HexCode.body, hdigit]

theorem escapeRun_of_ne (h : unit ≠ 0x5F) : escapeRun (unit :: rest) = none := by
  rw [← Option.not_isSome_iff_eq_none, Option.isSome_iff_exists]
  rintro ⟨code, hcode⟩
  rcases escapeRun_eq_some_iff.mp hcode with ⟨tail, htail⟩
  exact h (List.cons.inj htail).left

theorem isHexDigit_bounds (digit : HexDigit) : 0x30 ≤ digit.val.toNat ∧ digit.val.toNat ≤ 0x66 ∧
    digit.val.toNat ≠ 0x5F := by
  have h := digit.property
  simp only [isHexDigit, Bool.or_eq_true, Bool.and_eq_true, decide_eq_true_eq] at h
  omega

theorem not_isUnwritable_of_bounds (h : 0x20 ≤ unit.toNat) (hle : unit.toNat ≤ 0x78) :
    isUnwritable unit = false := by
  rw [Bool.eq_false_iff]
  intro hunwritable
  simp only [isUnwritable, Bool.or_eq_true, Bool.and_eq_true, decide_eq_true_eq] at hunwritable
  omega

theorem HexCode.mem_body (h : unit ∈ code.body) : unit ≠ 0x5F ∧ isUnwritable unit = false := by
  have hdigit : forall digit : HexDigit, digit.val ≠ 0x5F ∧ isUnwritable digit.val = false := by
    intro digit
    rcases isHexDigit_bounds digit with ⟨hlow, hhigh, hne⟩
    constructor
    · intro heq
      rw [heq] at hne
      exact hne rfl
    · exact not_isUnwritable_of_bounds (by omega) (by omega)
  simp only [HexCode.body, List.mem_cons, List.not_mem_nil, or_false] at h
  rcases h with rfl | rfl | rfl | rfl | rfl
  · exact ⟨by decide, by decide⟩
  · exact hdigit code.first
  · exact hdigit code.second
  · exact hdigit code.third
  · exact hdigit code.fourth

/-!
## Writing
-/

def written (text : ScriptString) : ScriptString :=
  escapeUnwritable (protectRuns text)

def writtenUnit (unit : UInt16) : ScriptString :=
  if isUnwritable unit then scriptString "_x" ++ upperHexDigits unit ++ scriptString "_"
  else [unit]

theorem escapeUnwritable_append (left right : ScriptString) :
    escapeUnwritable (left ++ right) = escapeUnwritable left ++ escapeUnwritable right :=
  List.flatMap_append

theorem escapeUnwritable_of_writable (h : forall unit, unit ∈ text -> isUnwritable unit = false) :
    escapeUnwritable text = text := by
  induction text with
  | nil => rfl
  | cons unit rest ih =>
      rw [escapeUnwritable, List.flatMap_cons, h unit (List.mem_cons_self ..)]
      rw [← escapeUnwritable, ih fun other hother => h other (List.mem_cons_of_mem _ hother)]
      rfl

@[simp] theorem written_nil : written [] = [] := rfl

theorem written_run (code : HexCode) (rest : ScriptString) :
    written (0x5F :: (code.body ++ 0x5F :: rest)) =
      scriptString "_x005F_" ++ (code.body ++ 0x5F :: written rest) := by
  have hfound : escapeRuns.found (0x5F :: (code.body ++ 0x5F :: rest)) = some code :=
    escapeRun_eq_some_iff.mpr ⟨rest, rfl⟩
  have hopens : escapeUnwritable (scriptString "_x005F_") = scriptString "_x005F_" := by decide
  have hcloses : escapeUnwritable (scriptString "_") = scriptString "_" := by decide
  have hbody : escapeUnwritable code.body = code.body :=
    escapeUnwritable_of_writable fun unit hunit => (HexCode.mem_body hunit).right
  rw [written, protectRuns, FixedPattern.replaceAll_of_found hfound]
  rw [escapeUnwritable_append, escapeUnwritable_append, escapeUnwritable_append]
  rw [hopens, hbody, hcloses, List.append_assoc, List.append_assoc]
  rfl

theorem written_cons (h : escapeRun (unit :: rest) = none) :
    written (unit :: rest) = writtenUnit unit ++ written rest := by
  rw [written, protectRuns, FixedPattern.replaceAll_of_not_found h]
  rfl

/-!
## Reading
-/

@[simp] theorem plainText_nil : plainText [] = [] := rfl

theorem plainText_run (code : HexCode) (rest : ScriptString) :
    plainText (0x5F :: (code.body ++ 0x5F :: rest)) = code.value :: plainText rest := by
  have hfound : escapeRuns.found (0x5F :: (code.body ++ 0x5F :: rest)) = some code :=
    escapeRun_eq_some_iff.mpr ⟨rest, rfl⟩
  rw [plainText, FixedPattern.replaceAll_of_found hfound]
  rfl

theorem plainText_cons (h : escapeRun (unit :: rest) = none) :
    plainText (unit :: rest) = unit :: plainText rest :=
  FixedPattern.replaceAll_of_not_found h

theorem plainText_append (h : forall unit, unit ∈ text -> unit ≠ 0x5F) :
    plainText (text ++ rest) = text ++ plainText rest := by
  induction text with
  | nil => rfl
  | cons unit tail ih =>
      rw [List.cons_append, plainText_cons (escapeRun_of_ne (h unit (List.mem_cons_self ..)))]
      rw [ih fun other hother => h other (List.mem_cons_of_mem _ hother)]
      rfl

theorem plainText_body (code : HexCode) (rest : ScriptString) :
    plainText (code.body ++ rest) = code.body ++ plainText rest :=
  plainText_append fun _ hunit => (HexCode.mem_body hunit).left

/-!
## Reading what was written

An underscore that no run of the writer has taken opens one for the reader when
the text goes on like a run up to an underscore, or up to a unit that is written
as an escape.
-/

def ContinuesRun (rest : ScriptString) : Prop :=
  exists (code : HexCode) (close : UInt16) (tail : ScriptString),
    rest = code.body ++ close :: tail ∧ (close = 0x5F ∨ isUnwritable close = true)

theorem hexDigit_toNat_upperHexDigit {n : Nat} (h : n < 0x10) :
    exists digit : HexDigit, digit.val = upperHexDigit n ∧ digit.value = n := by
  have hall : forall n : Fin 0x10, isHexDigit (upperHexDigit n) = true ∧
      forall hdigit : isHexDigit (upperHexDigit n) = true,
        HexDigit.value ⟨upperHexDigit n, hdigit⟩ = n.val := by
    decide
  have hdigit := hall ⟨n, h⟩
  exact ⟨⟨upperHexDigit n, hdigit.left⟩, rfl, hdigit.right hdigit.left⟩

theorem exists_writtenUnit (h : isUnwritable unit = true) :
    exists code : HexCode, writtenUnit unit = 0x5F :: (code.body ++ [0x5F]) ∧
      code.value = unit := by
  have hlt := unit.toNat_lt
  rcases hexDigit_toNat_upperHexDigit (n := unit.toNat / 0x1000) (by omega) with ⟨a, ha, hav⟩
  rcases hexDigit_toNat_upperHexDigit (n := unit.toNat / 0x100 % 0x10) (by omega) with ⟨b, hb, hbv⟩
  rcases hexDigit_toNat_upperHexDigit (n := unit.toNat / 0x10 % 0x10) (by omega) with ⟨c, hc, hcv⟩
  rcases hexDigit_toNat_upperHexDigit (n := unit.toNat % 0x10) (by omega) with ⟨d, hd, hdv⟩
  refine ⟨⟨a, b, c, d⟩, ?_, ?_⟩
  · rw [writtenUnit, if_pos h, upperHexDigits, HexCode.body, ha, hb, hc, hd]
    rfl
  · have hvalue : unit.toNat / 0x1000 * 0x1000 + unit.toNat / 0x100 % 0x10 * 0x100 +
        unit.toNat / 0x10 % 0x10 * 0x10 + unit.toNat % 0x10 = unit.toNat := by
      omega
    rw [HexCode.value, hav, hbv, hcv, hdv, hvalue, UInt16.ofNat_toNat]

theorem writtenUnit_of_writable (h : isUnwritable unit = false) : writtenUnit unit = [unit] := by
  rw [writtenUnit, h]
  rfl

theorem isUnwritable_underscore : isUnwritable 0x5F = false := by decide

theorem written_cons_cases (unit : UInt16) (rest : ScriptString) :
    (unit ≠ 0x5F ∧ isUnwritable unit = false ∧ written (unit :: rest) = unit :: written rest) ∨
      ((unit = 0x5F ∨ isUnwritable unit = true) ∧
        exists tail, written (unit :: rest) = 0x5F :: tail) := by
  cases hunwritable : isUnwritable unit with
  | true =>
      apply Or.inr
      refine ⟨Or.inr rfl, ?_⟩
      rcases exists_writtenUnit hunwritable with ⟨code, hcode, _⟩
      have hne : unit ≠ 0x5F := by
        rintro rfl
        rw [isUnwritable_underscore] at hunwritable
        cases hunwritable
      rw [written_cons (escapeRun_of_ne hne), hcode]
      exact ⟨_, rfl⟩
  | false =>
      by_cases hunit : unit = 0x5F
      · apply Or.inr
        refine ⟨Or.inl hunit, ?_⟩
        rw [hunit]
        cases hrun : escapeRun (0x5F :: rest) with
        | none =>
            rw [written_cons hrun, writtenUnit_of_writable isUnwritable_underscore]
            exact ⟨_, rfl⟩
        | some code =>
            rcases escapeRun_eq_some_iff.mp hrun with ⟨tail, htail⟩
            rw [htail, written_run]
            exact ⟨_, rfl⟩
      · apply Or.inl
        refine ⟨hunit, rfl, ?_⟩
        rw [written_cons (escapeRun_of_ne hunit), writtenUnit_of_writable hunwritable]
        rfl

theorem eq_append_of_written {body tail : ScriptString}
    (hbody : forall unit, unit ∈ body -> unit ≠ 0x5F)
    (h : written text = body ++ tail) : exists rest, text = body ++ rest ∧ written rest = tail := by
  induction body generalizing text with
  | nil => exact ⟨text, rfl, h⟩
  | cons unit body ih =>
      cases text with
      | nil => cases h
      | cons first rest =>
          rcases written_cons_cases first rest with ⟨_, _, heq⟩ | ⟨_, other, heq⟩
          · rw [heq] at h
            injection h with hunit hrest
            rcases ih (fun u hu => hbody u (List.mem_cons_of_mem _ hu)) hrest with
              ⟨last, hlast, hwritten⟩
            exact ⟨last, by rw [hunit, hlast]; rfl, hwritten⟩
          · rw [heq] at h
            injection h with hunit
            exact absurd hunit.symm (hbody unit (List.mem_cons_self ..))

/-- An underscore before a written text opens a run only where the text continues one. -/
theorem escapeRun_written (h : ¬ ContinuesRun rest) :
    escapeRun (0x5F :: written rest) = none := by
  rw [← Option.not_isSome_iff_eq_none, Option.isSome_iff_exists]
  rintro ⟨code, hcode⟩
  rcases escapeRun_eq_some_iff.mp hcode with ⟨tail, htail⟩
  injection htail with _ hwritten
  rcases eq_append_of_written (fun _ hunit => (HexCode.mem_body hunit).left) hwritten with
    ⟨last, hlast, hclose⟩
  cases last with
  | nil => cases hclose
  | cons close tail =>
      apply h
      refine ⟨code, close, tail, hlast, ?_⟩
      rcases written_cons_cases close tail with ⟨hne, _, heq⟩ | ⟨hcloses, _⟩
      · rw [heq] at hclose
        injection hclose with hunit
        exact absurd hunit hne
      · exact hcloses

def readBack (text : ScriptString) : ScriptString :=
  plainText (written text)

/-- What is read of a written text after an underscore that the writer left alone. -/
def readAfterUnderscore (rest : ScriptString) : ScriptString :=
  plainText (0x5F :: written rest)

theorem exists_underscoreCode : exists code : HexCode,
    scriptString "_x005F_" = 0x5F :: (code.body ++ [0x5F]) ∧ code.value = 0x5F :=
  ⟨⟨⟨0x30, by decide⟩, ⟨0x30, by decide⟩, ⟨0x35, by decide⟩, ⟨0x46, by decide⟩⟩, by decide,
    by decide⟩

theorem written_body (code : HexCode) (rest : ScriptString) :
    written (code.body ++ rest) = code.body ++ written rest := by
  have hall : forall body : ScriptString,
      (forall unit, unit ∈ body -> unit ≠ 0x5F ∧ isUnwritable unit = false) ->
      written (body ++ rest) = body ++ written rest := by
    intro body hbody
    induction body with
    | nil => rfl
    | cons unit body ih =>
        rcases hbody unit (List.mem_cons_self ..) with ⟨hne, hwritable⟩
        rw [List.cons_append, written_cons (escapeRun_of_ne hne),
          writtenUnit_of_writable hwritable,
          ih fun other hother => hbody other (List.mem_cons_of_mem _ hother)]
        rfl
  exact hall code.body fun unit hunit => HexCode.mem_body hunit

theorem readBack_run (code : HexCode) (rest : ScriptString) :
    readBack (0x5F :: (code.body ++ 0x5F :: rest)) =
      0x5F :: (code.body ++ readAfterUnderscore rest) := by
  rcases exists_underscoreCode with ⟨underscore, hrun, hvalue⟩
  have hassoc : 0x5F :: (underscore.body ++ [0x5F]) ++ (code.body ++ 0x5F :: written rest) =
      0x5F :: (underscore.body ++ 0x5F :: (code.body ++ 0x5F :: written rest)) := by
    simp
  rw [readBack, written_run, hrun, hassoc, plainText_run, hvalue, plainText_body]
  rfl

theorem readBack_unwritable (h : isUnwritable unit = true) (rest : ScriptString) :
    readBack (unit :: rest) = unit :: readBack rest := by
  rcases exists_writtenUnit h with ⟨code, hcode, hvalue⟩
  have hne : unit ≠ 0x5F := by
    rintro rfl
    rw [isUnwritable_underscore] at h
    cases h
  have hassoc : 0x5F :: (code.body ++ [0x5F]) ++ written rest =
      0x5F :: (code.body ++ 0x5F :: written rest) := by
    simp
  rw [readBack, written_cons (escapeRun_of_ne hne), hcode, hassoc, plainText_run, hvalue]
  rfl

theorem readBack_plain (hne : unit ≠ 0x5F) (h : isUnwritable unit = false) (rest : ScriptString) :
    readBack (unit :: rest) = unit :: readBack rest := by
  rw [readBack, written_cons (escapeRun_of_ne hne), writtenUnit_of_writable h]
  exact plainText_cons (escapeRun_of_ne hne)

theorem readBack_underscore (h : escapeRun (0x5F :: rest) = none) :
    readBack (0x5F :: rest) = readAfterUnderscore rest := by
  rw [readBack, written_cons h, writtenUnit_of_writable isUnwritable_underscore]
  rfl

theorem text_cases (text : ScriptString) :
    text = [] ∨ (exists (code : HexCode) (rest : ScriptString),
        text = 0x5F :: (code.body ++ 0x5F :: rest)) ∨
      (exists rest, text = 0x5F :: rest ∧ escapeRun (0x5F :: rest) = none) ∨
      exists unit rest, text = unit :: rest ∧ unit ≠ 0x5F := by
  cases text with
  | nil => exact Or.inl rfl
  | cons unit rest =>
      by_cases hunit : unit = 0x5F
      · rw [hunit]
        cases hrun : escapeRun (0x5F :: rest) with
        | none => exact Or.inr (Or.inr (Or.inl ⟨rest, rfl, hrun⟩))
        | some code =>
            rcases escapeRun_eq_some_iff.mp hrun with ⟨tail, htail⟩
            exact Or.inr (Or.inl ⟨code, tail, htail⟩)
      · exact Or.inr (Or.inr (Or.inr ⟨unit, rest, rfl, hunit⟩))

theorem readBack_cons_of_ne (hne : unit ≠ 0x5F) (rest : ScriptString) :
    readBack (unit :: rest) = unit :: readBack rest := by
  cases h : isUnwritable unit with
  | true => exact readBack_unwritable h rest
  | false => exact readBack_plain hne h rest

theorem readAfterUnderscore_of_not_continues (h : ¬ ContinuesRun rest) :
    readAfterUnderscore rest = 0x5F :: readBack rest :=
  plainText_cons (escapeRun_written h)

/-- What the reader makes of a run that the writer has not protected. -/
inductive Misreads (code : HexCode) : ScriptString -> ScriptString -> Prop where
  | underscore {tail : ScriptString} (hplain : escapeRun (0x5F :: tail) = none) :
      Misreads code (0x5F :: tail) (code.value :: readBack tail)
  | run {next underscore : HexCode} {tail : ScriptString} :
      Misreads code (0x5F :: (next.body ++ 0x5F :: tail))
        (code.value :: (underscore.body ++ next.value :: readBack tail))
  | unwritable {unit : UInt16} {next : HexCode} {tail : ScriptString}
      (hunit : isUnwritable unit = true) (hvalue : next.value = unit) :
      Misreads code (unit :: tail) (code.value :: (next.body ++ readAfterUnderscore tail))

theorem readAfterUnderscore_misreads (code : HexCode) {close : UInt16} {tail : ScriptString}
    (hclose : close = 0x5F ∨ isUnwritable close = true) :
    Misreads code (close :: tail) (readAfterUnderscore (code.body ++ close :: tail)) := by
  rw [readAfterUnderscore, written_body]
  rcases hclose with rfl | hunwritable
  · cases hrun : escapeRun (0x5F :: tail) with
    | none =>
        rw [written_cons hrun, writtenUnit_of_writable isUnwritable_underscore,
          List.singleton_append, plainText_run]
        exact Misreads.underscore hrun
    | some next =>
        rcases escapeRun_eq_some_iff.mp hrun with ⟨rest, hrest⟩
        rcases exists_underscoreCode with ⟨underscore, hopens, _⟩
        have hassoc : 0x5F :: (underscore.body ++ [0x5F]) ++ (next.body ++ 0x5F :: written rest) =
            0x5F :: (underscore.body ++ 0x5F :: (next.body ++ 0x5F :: written rest)) := by
          simp
        rw [hrest, written_run, hopens, hassoc, plainText_run, plainText_body, plainText_run]
        exact Misreads.run
  · rcases exists_writtenUnit hunwritable with ⟨next, hnext, hvalue⟩
    have hne : close ≠ 0x5F := by
      rintro rfl
      rw [isUnwritable_underscore] at hunwritable
      cases hunwritable
    have hassoc : 0x5F :: (next.body ++ [0x5F]) ++ written tail =
        0x5F :: (next.body ++ 0x5F :: written tail) := by
      simp
    rw [written_cons (escapeRun_of_ne hne), hnext, hassoc, plainText_run, plainText_body]
    exact Misreads.unwritable hunwritable hvalue

@[simp] theorem HexCode.length_body (code : HexCode) : code.body.length = 5 := rfl

theorem HexCode.body_injective : Function.Injective HexCode.body := by
  intro left right h
  cases left
  cases right
  simp only [HexCode.body, List.cons.injEq, Subtype.val_inj] at h
  rcases h with ⟨_, rfl, rfl, rfl, rfl, _⟩
  rfl

theorem length_readBack_le (bound : Nat) (text : ScriptString) (h : text.length ≤ bound) :
    (readBack text).length ≤ text.length ∧
      (readAfterUnderscore text).length ≤ text.length + 1 := by
  induction bound generalizing text with
  | zero =>
      rw [List.length_eq_zero_iff.mp (Nat.le_zero.mp h)]
      decide
  | succ bound ih =>
      have hback : (readBack text).length ≤ text.length := by
        rcases text_cases text with
          rfl | ⟨code, rest, rfl⟩ | ⟨rest, rfl, hrun⟩ | ⟨unit, rest, rfl, hne⟩
        · decide
        · simp only [List.length_cons, List.length_append, HexCode.length_body] at h
          have hrest := (ih rest (by omega)).right
          simp only [readBack_run, List.length_cons, List.length_append, HexCode.length_body]
          omega
        · have hrest := (ih rest (Nat.le_of_succ_le_succ h)).right
          rw [readBack_underscore hrun]
          exact hrest
        · have hrest := (ih rest (Nat.le_of_succ_le_succ h)).left
          rw [readBack_cons_of_ne hne]
          exact Nat.succ_le_succ hrest
      refine ⟨hback, ?_⟩
      by_cases hcontinues : ContinuesRun text
      · rcases hcontinues with ⟨code, close, tail, rfl, hclose⟩
        simp only [List.length_append, List.length_cons, HexCode.length_body] at h ⊢
        have hmisreads : Misreads code (close :: tail)
            (readAfterUnderscore (code.body ++ close :: tail)) :=
          readAfterUnderscore_misreads code hclose
        generalize readAfterUnderscore (code.body ++ close :: tail) = read at hmisreads ⊢
        cases hmisreads with
        | underscore hplain =>
            have htail := (ih tail (by omega)).left
            rw [List.length_cons]
            omega
        | @run next underscore rest =>
            simp only [List.length_cons, List.length_append, HexCode.length_body] at h ⊢
            have htail := (ih rest (by omega)).left
            omega
        | unwritable hunit hvalue =>
            have htail := (ih tail (by omega)).right
            simp only [List.length_cons, List.length_append, HexCode.length_body]
            omega
      · rw [readAfterUnderscore_of_not_continues hcontinues]
        exact Nat.succ_le_succ hback

/-- A text that continues a run is never read back after an underscore. -/
theorem readAfterUnderscore_eq_iff :
    readAfterUnderscore rest = 0x5F :: rest ↔ ¬ ContinuesRun rest ∧ readBack rest = rest := by
  constructor
  · intro h
    by_cases hcontinues : ContinuesRun rest
    · exfalso
      rcases hcontinues with ⟨code, close, tail, rfl, hclose⟩
      have hmisreads : Misreads code (close :: tail)
          (readAfterUnderscore (code.body ++ close :: tail)) :=
        readAfterUnderscore_misreads code hclose
      rw [h] at hmisreads
      generalize hread : 0x5F :: (code.body ++ close :: tail) = read at hmisreads
      cases hmisreads with
      | underscore hplain =>
          injection hread with _ htail
          have hle := (length_readBack_le _ tail le_rfl).left
          rw [← htail, List.length_append, List.length_cons] at hle
          omega
      | @run next underscore last =>
          injection hread with _ htail
          have hlengths := congrArg List.length htail
          have hle := (length_readBack_le _ last le_rfl).left
          simp only [List.length_append, List.length_cons, HexCode.length_body] at hlengths
          omega
      | @unwritable _ next _ hunit hvalue =>
          injection hread with hcode htail
          have hsame : code = next := HexCode.body_injective (List.append_inj htail rfl).left
          rw [← hvalue, ← hsame, ← hcode, isUnwritable_underscore] at hunit
          cases hunit
    · rw [readAfterUnderscore_of_not_continues hcontinues] at h
      exact ⟨hcontinues, (List.cons.inj h).right⟩
  · rintro ⟨hcontinues, hback⟩
    rw [readAfterUnderscore_of_not_continues hcontinues, hback]

/-!
## Texts that survive
-/

/-- The text starts with two runs that share an underscore, or with a run that has a
unit to escape in the place of its last underscore. -/
inductive MisreadAt : ScriptString -> Prop where
  | overlap (code next : HexCode) (rest : ScriptString) :
      MisreadAt (0x5F :: (code.body ++ 0x5F :: (next.body ++ 0x5F :: rest)))
  | unwritable (code : HexCode) {unit : UInt16} (rest : ScriptString)
      (hunit : isUnwritable unit = true) : MisreadAt (0x5F :: (code.body ++ unit :: rest))

def IsAmbiguous (text : ScriptString) : Prop :=
  exists rest, rest <:+ text ∧ MisreadAt rest

theorem isAmbiguous_cons_iff :
    IsAmbiguous (unit :: rest) ↔ MisreadAt (unit :: rest) ∨ IsAmbiguous rest := by
  constructor
  · rintro ⟨last, hsuffix, hmisread⟩
    rcases List.suffix_cons_iff.mp hsuffix with rfl | hrest
    · exact Or.inl hmisread
    · exact Or.inr ⟨last, hrest, hmisread⟩
  · rintro (hmisread | ⟨last, hsuffix, hmisread⟩)
    · exact ⟨_, List.suffix_refl _, hmisread⟩
    · exact ⟨last, hsuffix.trans (List.suffix_cons unit rest), hmisread⟩

theorem not_isAmbiguous_nil : ¬ IsAmbiguous [] := by
  rintro ⟨last, hsuffix, hmisread⟩
  rw [List.suffix_nil.mp hsuffix] at hmisread
  cases hmisread

theorem not_misreadAt_of_ne (hne : unit ≠ 0x5F) : ¬ MisreadAt (unit :: rest) := by
  intro h
  cases h with
  | overlap => exact hne rfl
  | unwritable => exact hne rfl

theorem isAmbiguous_body_append (code : HexCode) :
    IsAmbiguous (code.body ++ rest) ↔ IsAmbiguous rest := by
  have hall : forall body : ScriptString, (forall unit, unit ∈ body -> unit ≠ 0x5F) ->
      (IsAmbiguous (body ++ rest) ↔ IsAmbiguous rest) := by
    intro body hbody
    induction body with
    | nil => exact Iff.rfl
    | cons unit body ih =>
        rw [List.cons_append, isAmbiguous_cons_iff,
          ih fun other hother => hbody other (List.mem_cons_of_mem _ hother)]
        constructor
        · rintro (hmisread | hrest)
          · exact absurd hmisread (not_misreadAt_of_ne (hbody unit (List.mem_cons_self ..)))
          · exact hrest
        · exact Or.inr
  exact hall code.body fun unit hunit => (HexCode.mem_body hunit).left

theorem MisreadAt.continuesRun (h : MisreadAt (0x5F :: rest)) : ContinuesRun rest := by
  cases h with
  | overlap code next tail => exact ⟨code, 0x5F, _, rfl, Or.inl rfl⟩
  | unwritable code tail hunit => exact ⟨code, _, tail, rfl, Or.inr hunit⟩

theorem isAmbiguous_run_iff (code : HexCode) :
    IsAmbiguous (0x5F :: (code.body ++ 0x5F :: rest)) ↔ ContinuesRun rest ∨ IsAmbiguous rest := by
  rw [isAmbiguous_cons_iff, isAmbiguous_body_append, isAmbiguous_cons_iff]
  constructor
  · rintro (hmisread | hmisread | hrest)
    · generalize htext : 0x5F :: (code.body ++ 0x5F :: rest) = text at hmisread
      cases hmisread with
      | overlap other next tail =>
          have htails := (List.append_inj (List.cons.inj htext).right rfl).right
          rw [(List.cons.inj htails).right]
          exact Or.inl ⟨next, 0x5F, tail, rfl, Or.inl rfl⟩
      | unwritable other tail hunit =>
          have htails := (List.append_inj (List.cons.inj htext).right rfl).right
          rw [← (List.cons.inj htails).left, isUnwritable_underscore] at hunit
          cases hunit
    · exact Or.inl hmisread.continuesRun
    · exact Or.inr hrest
  · rintro (⟨next, close, tail, rfl, rfl | hunit⟩ | hrest)
    · exact Or.inl (MisreadAt.overlap code next tail)
    · exact Or.inr (Or.inl (MisreadAt.unwritable next tail hunit))
    · exact Or.inr (Or.inr hrest)

theorem isAmbiguous_underscore_iff (h : escapeRun (0x5F :: rest) = none) :
    IsAmbiguous (0x5F :: rest) ↔ ContinuesRun rest ∨ IsAmbiguous rest := by
  rw [isAmbiguous_cons_iff]
  constructor
  · rintro (hmisread | hrest)
    · exact Or.inl hmisread.continuesRun
    · exact Or.inr hrest
  · rintro (⟨code, close, tail, rfl, rfl | hunit⟩ | hrest)
    · rw [escapeRun_eq_some_iff.mpr ⟨tail, rfl⟩] at h
      cases h
    · exact Or.inl (MisreadAt.unwritable code tail hunit)
    · exact Or.inr hrest

theorem readBack_eq_iff (text : ScriptString) : readBack text = text ↔ ¬ IsAmbiguous text := by
  have hall : forall bound (text : ScriptString), text.length ≤ bound ->
      (readBack text = text ↔ ¬ IsAmbiguous text) := by
    intro bound
    induction bound with
    | zero =>
        intro text h
        rw [List.length_eq_zero_iff.mp (Nat.le_zero.mp h)]
        exact ⟨fun _ => not_isAmbiguous_nil, fun _ => rfl⟩
    | succ bound ih =>
        intro text h
        rcases text_cases text with
          rfl | ⟨code, rest, rfl⟩ | ⟨rest, rfl, hrun⟩ | ⟨unit, rest, rfl, hne⟩
        · exact ⟨fun _ => not_isAmbiguous_nil, fun _ => rfl⟩
        · simp only [List.length_cons, List.length_append, HexCode.length_body] at h
          rw [readBack_run, isAmbiguous_run_iff, not_or, ← ih rest (by omega),
            ← readAfterUnderscore_eq_iff, List.cons.injEq, List.append_cancel_left_eq]
          exact and_iff_right rfl
        · rw [readBack_underscore hrun, isAmbiguous_underscore_iff hrun, not_or,
            ← ih rest (Nat.le_of_succ_le_succ h), readAfterUnderscore_eq_iff]
        · rw [readBack_cons_of_ne hne, isAmbiguous_cons_iff, not_or,
            ← ih rest (Nat.le_of_succ_le_succ h), List.cons.injEq]
          exact ⟨fun hrest => ⟨not_misreadAt_of_ne hne, hrest.right⟩, fun hrest =>
            ⟨rfl, hrest.right⟩⟩
  exact hall text.length text le_rfl

/-- A text is read back exactly when it has no two runs that share an underscore
and no run that a unit to escape would close. -/
theorem excel_text_survives (text : ScriptString) :
    plainText (excelText text) = toWellFormed text ↔ ¬ IsAmbiguous (toWellFormed text) :=
  readBack_eq_iff (toWellFormed text)

theorem excel_text_misread :
    plainText (excelText (scriptString "_x0041_x0042_")) = scriptString "_x0041B" ∧
      plainText (excelText (scriptString "_x0041_x0042_")) ≠
        toWellFormed (scriptString "_x0041_x0042_") := by
  decide

/-!
## What is written

XML holds every unit that is written, and a text within the limit of a cell is
written within the limit of its reader.
-/

theorem length_toWellFormed (text : ScriptString) : (toWellFormed text).length = text.length := by
  have hlengths : forall replaced : CodePoint -> ScriptString,
      (forall point, (replaced point).length = point.units.length) ->
      forall points : List CodePoint,
        (points.flatMap replaced).length = (points.flatMap CodePoint.units).length := by
    intro replaced hreplaced points
    induction points with
    | nil => rfl
    | cons point rest ih =>
        rw [List.flatMap_cons, List.flatMap_cons, List.length_append, List.length_append, ih,
          hreplaced point]
  rw [toWellFormed, hlengths]
  · rw [units_codePoints]
  · intro point
    cases point with
    | char c => rfl
    | lone unit => rfl

theorem length_writtenUnit_le (unit : UInt16) : (writtenUnit unit).length ≤ 7 := by
  rw [writtenUnit]
  split
  · exact Nat.le_of_eq rfl
  · exact Nat.le_of_ble_eq_true rfl

theorem length_written_le (bound : Nat) (text : ScriptString) (h : text.length ≤ bound) :
    (written text).length ≤ 7 * text.length := by
  induction bound generalizing text with
  | zero =>
      rw [List.length_eq_zero_iff.mp (Nat.le_zero.mp h)]
      exact Nat.le_refl 0
  | succ bound ih =>
      cases text with
      | nil => exact Nat.le_refl 0
      | cons unit rest =>
          cases hrun : escapeRun (unit :: rest) with
          | none =>
              have hunit := length_writtenUnit_le unit
              have hrest := ih rest (Nat.le_of_succ_le_succ h)
              rw [written_cons hrun, List.length_append, List.length_cons]
              omega
          | some code =>
              rcases escapeRun_eq_some_iff.mp hrun with ⟨tail, htail⟩
              rw [htail] at h ⊢
              simp only [List.length_cons, List.length_append, HexCode.length_body] at h
              have hrest := ih tail (by omega)
              have hopens : (scriptString "_x005F_").length = 7 := by decide
              simp only [written_run, List.length_append, List.length_cons, HexCode.length_body,
                hopens]
              omega

theorem excelText_within_limit {text : ScriptString}
    (h : text.length ≤ spreadsheetLimits.cellTextLength) :
    (excelText text).length ≤ spreadsheetLimits.writtenCellTextLength := by
  have hwritten := length_written_le _ (toWellFormed text) le_rfl
  rw [length_toWellFormed] at hwritten
  calc
    (excelText text).length ≤ 7 * text.length := hwritten
    _ ≤ 7 * spreadsheetLimits.cellTextLength := Nat.mul_le_mul_left 7 h
    _ = spreadsheetLimits.writtenCellTextLength := rfl

end Spreadsheets
end Pertexo
