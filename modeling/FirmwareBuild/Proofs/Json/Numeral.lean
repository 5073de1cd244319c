import FirmwareBuild.Json.Token
import FirmwareBuild.Proofs.Text.Span
import Mathlib.Data.List.TakeWhile

/-! The numerals of JSON.

A numeral is a sign, digits without a leading zero, and maybe a fraction and an exponent. The
reader of numbers accepts the numerals and nothing else, each with its value: `number?_eq_some`. -/
namespace FirmwareBuild.Json

/-- Digits, one at least. -/
structure AreDigits (ds : List Char) : Prop where
  nonempty : ds ≠ []
  digits : ∀ c ∈ ds, c.isDigit = true

/-- An exponent: its letter, its sign if it has one, and its digits. -/
structure Exponent where
  letter : Char
  sign : Option Char
  digits : List Char

namespace Exponent

structure IsProper (x : Exponent) : Prop where
  letter : x.letter = 'e' ∨ x.letter = 'E'
  sign : ∀ c ∈ x.sign, c = '+' ∨ c = '-'
  digits : AreDigits x.digits

def text (x : Exponent) : List Char := x.letter :: (x.sign.toList ++ x.digits)

def value (x : Exponent) : Int :=
  if x.sign = some '-' then -(Json.digits x.digits : Int) else Json.digits x.digits

end Exponent

structure Numeral where
  negative : Bool
  whole : List Char
  fraction : Option (List Char)
  exponent : Option Exponent

namespace Numeral

structure IsProper (n : Numeral) : Prop where
  whole : AreDigits n.whole
  noLeadingZero : n.whole.head? = some '0' → n.whole = ['0']
  fraction : ∀ ds ∈ n.fraction, AreDigits ds
  exponent : ∀ x ∈ n.exponent, x.IsProper

def scaleText (n : Numeral) : List Char := (n.exponent.map Exponent.text).getD []

def scale (n : Numeral) : Int := (n.exponent.map Exponent.value).getD 0

/-- What stands behind the digits of the integer. -/
def rest (n : Numeral) : List Char :=
  (n.fraction.map fun ds => '.' :: ds).getD [] ++ n.scaleText

/-- The sign and what follows it. -/
def text (n : Numeral) : List Char :=
  (if n.negative then ['-'] else []) ++ (n.whole ++ n.rest)

def IsInteger (n : Numeral) : Prop := n.fraction = none ∧ n.exponent = none

instance (n : Numeral) : Decidable n.IsInteger :=
  decidable_of_iff (n.fraction.isNone ∧ n.exponent.isNone) (by simp [IsInteger])

/-- A numeral without a fraction and an exponent is an integer. -/
def value (n : Numeral) : Json :=
  if n.IsInteger then .int (if n.negative then -(digits n.whole : Int) else digits n.whole)
  else
    .real (.ofDecimal n.negative (digits (n.whole ++ n.fraction.getD []))
      (n.scale - (n.fraction.getD []).length))

end Numeral

/-! ### Exponents -/

theorem areDigits_iff {ds : List Char} :
    (!ds.isEmpty && ds.all Char.isDigit) = true ↔ AreDigits ds := by
  rw [Bool.and_eq_true, Bool.not_eq_true', List.isEmpty_eq_false_iff, List.all_eq_true]
  exact ⟨fun h => ⟨h.1, h.2⟩, fun h => ⟨h.1, h.2⟩⟩

theorem AreDigits.exists_cons {ds : List Char} (h : AreDigits ds) :
    ∃ d more, ds = d :: more ∧ d.isDigit = true := by
  obtain ⟨d, more, rfl⟩ := List.exists_cons_of_ne_nil h.nonempty
  exact ⟨d, more, rfl, h.digits d (List.mem_cons_self ..)⟩

theorem ne_of_isDigit {c d : Char} (hc : c.isDigit = true) (hd : d.isDigit = false) : c ≠ d := by
  rintro rfl
  exact absurd hc (by simp [hd])

theorem exponent?_eq_some {cs : List Char} {n : Int} : exponent? cs = some n ↔
    ∃ (sign : Option Char) (ds : List Char), (∀ c ∈ sign, c = '+' ∨ c = '-') ∧ AreDigits ds ∧
      sign.toList ++ ds = cs ∧ (if sign = some '-' then -(digits ds : Int) else digits ds) = n := by
  constructor
  · intro h
    rw [exponent?.eq_def] at h
    split at h
    · next ds =>
      split at h
      · next hds => exact ⟨some '-', ds, by simp, areDigits_iff.1 hds, rfl, by simpa using h⟩
      · exact nomatch h
    · next ds =>
      split at h
      · next hds => exact ⟨some '+', ds, by simp, areDigits_iff.1 hds, rfl, by simpa using h⟩
      · exact nomatch h
    · split at h
      · next hds => exact ⟨none, _, by simp, areDigits_iff.1 hds, rfl, by simpa using h⟩
      · exact nomatch h
  · rintro ⟨sign, ds, hsign, hds, rfl, rfl⟩
    cases sign with
    | some c =>
      rw [Option.toList_some, List.singleton_append]
      rcases hsign c rfl with rfl | rfl
      · simp [exponent?, areDigits_iff.2 hds]
      · simp [exponent?, areDigits_iff.2 hds]
    | none =>
      rw [Option.toList_none, List.nil_append, exponent?.eq_def]
      split
      · exact absurd (hds.digits '-' (List.mem_cons_self ..)) (by decide)
      · exact absurd (hds.digits '+' (List.mem_cons_self ..)) (by decide)
      · rw [if_pos (areDigits_iff.2 hds)]
        rfl

/-- What follows the digits of a fraction is an exponent or nothing. -/
theorem scale?_eq_some {cs : List Char} {n : Int} : scale? cs = some n ↔
    ∃ x : Option Exponent, (∀ e ∈ x, e.IsProper) ∧ (x.map Exponent.text).getD [] = cs ∧
      (x.map Exponent.value).getD 0 = n := by
  constructor
  · intro h
    have hletter {letter : Char} {more : List Char} (hl : letter = 'e' ∨ letter = 'E')
        (h : exponent? more = some n) : ∃ x : Option Exponent, (∀ e ∈ x, e.IsProper) ∧
          (x.map Exponent.text).getD [] = letter :: more ∧ (x.map Exponent.value).getD 0 = n := by
      obtain ⟨sign, ds, hsign, hds, rfl, rfl⟩ := exponent?_eq_some.1 h
      exact ⟨some ⟨letter, sign, ds⟩, fun e he => Option.some.inj he ▸ ⟨hl, hsign, hds⟩, rfl, rfl⟩
    rw [scale?.eq_def] at h
    split at h
    · exact ⟨none, nofun, rfl, Option.some.inj h⟩
    · exact hletter (.inl rfl) h
    · exact hletter (.inr rfl) h
    · exact nomatch h
  · rintro ⟨x, hx, rfl, rfl⟩
    cases x with
    | none => rfl
    | some x =>
      obtain ⟨letter, sign, ds⟩ := x
      obtain ⟨hletter, hsign, hds⟩ := hx _ rfl
      have hvalue : exponent? (sign.toList ++ ds) = some (Exponent.value ⟨letter, sign, ds⟩) :=
        exponent?_eq_some.2 ⟨sign, ds, hsign, hds, rfl, rfl⟩
      obtain rfl | rfl : letter = 'e' ∨ letter = 'E' := hletter
      · exact hvalue
      · exact hvalue

/-! ### Numbers -/

variable {n : Numeral}

/-- No digit begins an exponent. -/
theorem Numeral.any_isDigit_scaleText (hn : n.IsProper) :
    n.scaleText.head?.any Char.isDigit = false := by
  rw [Numeral.scaleText]
  cases hx : n.exponent with
  | none => rfl
  | some x => rcases (hn.exponent x hx).letter with h | h <;> simp [Exponent.text, h]

theorem Numeral.any_isDigit_rest (hn : n.IsProper) : n.rest.head?.any Char.isDigit = false := by
  rw [Numeral.rest]
  cases n.fraction with
  | none => exact n.any_isDigit_scaleText hn
  | some ds => rfl

/-- A number whose integer digits have been read. -/
def behind? (negative : Bool) (whole : List Char) : List Char → Option Json
  | [] => some (.int (if negative then -(digits whole : Int) else digits whole))
  | '.' :: more =>
    let fraction := more.takeWhile Char.isDigit
    if fraction.isEmpty then none
    else (scale? (more.dropWhile Char.isDigit)).map fun x =>
      .real (.ofDecimal negative (digits (whole ++ fraction)) (x - fraction.length))
  | more => (scale? more).map fun x => .real (.ofDecimal negative (digits whole) x)

theorem magnitude?_eq (negative : Bool) (cs : List Char) : magnitude? negative cs =
    if (cs.takeWhile Char.isDigit).isEmpty || ((cs.takeWhile Char.isDigit).length > 1 &&
      (cs.takeWhile Char.isDigit).head? == some '0') then none
    else behind? negative (cs.takeWhile Char.isDigit) (cs.dropWhile Char.isDigit) := rfl

variable {negative : Bool} {whole cs : List Char} {v : Json}

theorem behind?_eq_some (hw : AreDigits whole) (hz : whole.head? = some '0' → whole = ['0']) :
    behind? negative whole cs = some v ↔
      ∃ n : Numeral, n.IsProper ∧ n.negative = negative ∧ n.whole = whole ∧ n.rest = cs ∧
        n.value = v := by
  constructor
  · intro h
    rw [behind?.eq_def] at h
    split at h
    · exact ⟨⟨negative, whole, none, none⟩, ⟨hw, hz, nofun, nofun⟩, rfl, rfl, rfl,
        Option.some.inj h⟩
    · next more =>
      dsimp only at h
      split at h
      · exact nomatch h
      · next hne =>
        obtain ⟨x, hx, rfl⟩ := Option.map_eq_some_iff.1 h
        obtain ⟨e, he, htext, rfl⟩ := scale?_eq_some.1 hx
        have hfraction : AreDigits (more.takeWhile Char.isDigit) :=
          ⟨by simpa using hne, fun c hc => List.mem_takeWhile_imp hc⟩
        refine ⟨⟨negative, whole, some (more.takeWhile Char.isDigit), e⟩,
          ⟨hw, hz, fun ds hds => Option.some.inj hds ▸ hfraction, he⟩, rfl, rfl, ?_, rfl⟩
        show '.' :: more.takeWhile Char.isDigit ++ (e.map Exponent.text).getD [] = '.' :: more
        rw [htext, List.cons_append, List.takeWhile_append_dropWhile]
    · next hnil hdot =>
      obtain ⟨x, hx, rfl⟩ := Option.map_eq_some_iff.1 h
      obtain ⟨e, he, htext, rfl⟩ := scale?_eq_some.1 hx
      cases e with
      | none => exact absurd htext.symm hnil
      | some e =>
        refine ⟨⟨negative, whole, none, some e⟩, ⟨hw, hz, nofun, he⟩, rfl, rfl, htext, ?_⟩
        simp [Numeral.value, Numeral.IsInteger, Numeral.scale]
  · rintro ⟨⟨negative, whole, fraction, e⟩, hn, rfl, rfl, rfl, rfl⟩
    have hscale : scale? (Numeral.scaleText ⟨negative, whole, fraction, e⟩) =
        some (Numeral.scale ⟨negative, whole, fraction, e⟩) :=
      scale?_eq_some.2 ⟨e, hn.exponent, rfl, rfl⟩
    cases fraction with
    | some ds =>
      have hds := hn.fraction ds rfl
      obtain ⟨htake, hdrop⟩ := Text.span_append hds.digits (Numeral.any_isDigit_scaleText hn)
      have hne : ds.isEmpty = false := List.isEmpty_eq_false_iff.2 hds.nonempty
      show behind? negative whole ('.' :: (ds ++ Numeral.scaleText _)) = _
      simp only [behind?, htake, hdrop, hne, hscale]
      rfl
    | none =>
      cases e with
      | none => rfl
      | some x =>
        have hread : behind? negative whole x.text =
            (scale? x.text).map fun x => .real (.ofDecimal negative (digits whole) x) := by
          obtain ⟨letter, sign, ds⟩ := x
          obtain rfl | rfl : letter = 'e' ∨ letter = 'E' := (hn.exponent _ rfl).letter <;> rfl
        have hscale : scale? x.text = some x.value := hscale
        show behind? negative whole x.text = _
        rw [hread, hscale]
        simp [Numeral.value, Numeral.IsInteger, Numeral.scale]

/-- Digits without a leading zero. -/
theorem isWhole_iff (h : ∀ c ∈ whole, c.isDigit = true) :
    (whole.isEmpty || (whole.length > 1 && whole.head? == some '0')) = false ↔
      AreDigits whole ∧ (whole.head? = some '0' → whole = ['0']) := by
  cases whole with
  | nil => simpa using fun hds : AreDigits [] => (hds.nonempty rfl).elim
  | cons c ds =>
    have hds : AreDigits (c :: ds) := ⟨List.cons_ne_nil c ds, h⟩
    cases ds with
    | nil => simp [hds]
    | cons d ds => simp [hds]

theorem magnitude?_eq_some : magnitude? negative cs = some v ↔
    ∃ n : Numeral, n.IsProper ∧ n.negative = negative ∧ n.whole ++ n.rest = cs ∧
      n.value = v := by
  have htake : ∀ c ∈ cs.takeWhile Char.isDigit, c.isDigit = true :=
    fun c hc => List.mem_takeWhile_imp hc
  rw [magnitude?_eq]
  constructor
  · intro h
    split at h
    · exact nomatch h
    · next hwhole =>
      obtain ⟨hw, hz⟩ := (isWhole_iff htake).1 (Bool.eq_false_iff.2 hwhole)
      obtain ⟨n, hn, hsign, hwhole, hrest, hv⟩ := (behind?_eq_some hw hz).1 h
      refine ⟨n, hn, hsign, ?_, hv⟩
      rw [hwhole, hrest, List.takeWhile_append_dropWhile]
  · rintro ⟨n, hn, hsign, rfl, hv⟩
    obtain ⟨hwhole, hrest⟩ := Text.span_append hn.whole.digits (Numeral.any_isDigit_rest hn)
    rw [hwhole, hrest, (isWhole_iff hn.whole.digits).2 ⟨hn.whole, hn.noLeadingZero⟩]
    exact (behind?_eq_some hn.whole hn.noLeadingZero).2 ⟨n, hn, hsign, rfl, rfl, hv⟩

/-- A number is a numeral and has its value. -/
theorem number?_eq_some : number? cs = some v ↔
    ∃ n : Numeral, n.IsProper ∧ n.text = cs ∧ n.value = v := by
  constructor
  · intro h
    rw [number?.eq_def] at h
    split at h
    · obtain ⟨n, hn, hsign, rfl, hv⟩ := magnitude?_eq_some.1 h
      exact ⟨n, hn, by simp [Numeral.text, hsign], hv⟩
    · obtain ⟨n, hn, hsign, rfl, hv⟩ := magnitude?_eq_some.1 h
      exact ⟨n, hn, by simp [Numeral.text, hsign], hv⟩
  · rintro ⟨n, hn, rfl, rfl⟩
    have hread : magnitude? n.negative (n.whole ++ n.rest) = some n.value :=
      magnitude?_eq_some.2 ⟨n, hn, rfl, rfl, rfl⟩
    rw [Numeral.text]
    cases hsign : n.negative with
    | true =>
      rw [hsign] at hread
      exact hread
    | false =>
      rw [hsign] at hread
      obtain ⟨c, ds, hwhole, hc⟩ := hn.whole.exists_cons
      have hminus : c ≠ '-' := ne_of_isDigit hc (by decide)
      rw [hwhole] at hread ⊢
      simpa [number?, hminus] using hread

/-- A numeral has no other characters than digits and five marks. -/
theorem Numeral.not_mem_text (hn : n.IsProper) {c : Char} (hdigit : c.isDigit = false)
    (hmark : c ∉ ['-', '.', 'e', 'E', '+']) : c ∉ n.text := by
  have hdigits {ds : List Char} (h : AreDigits ds) : c ∉ ds :=
    fun hc => ne_of_isDigit (h.digits c hc) hdigit rfl
  obtain ⟨hminus, hdot, he, hE, hplus⟩ : c ≠ '-' ∧ c ≠ '.' ∧ c ≠ 'e' ∧ c ≠ 'E' ∧ c ≠ '+' := by
    simpa using hmark
  have hsign : c ∉ (if n.negative then ['-'] else []) := by
    split
    · exact List.not_mem_cons_of_ne_of_not_mem hminus List.not_mem_nil
    · exact List.not_mem_nil
  have hfraction : c ∉ (n.fraction.map fun ds => '.' :: ds).getD [] := by
    cases hf : n.fraction with
    | none => exact List.not_mem_nil
    | some ds => exact List.not_mem_cons_of_ne_of_not_mem hdot (hdigits (hn.fraction ds hf))
  have hscale : c ∉ n.scaleText := by
    rw [Numeral.scaleText]
    cases hx : n.exponent with
    | none => exact List.not_mem_nil
    | some x =>
      obtain ⟨hletter, hsign, hds⟩ := hn.exponent x hx
      refine List.not_mem_cons_of_ne_of_not_mem ?_ (List.not_mem_append ?_ (hdigits hds))
      · rcases hletter with h | h <;> rw [h] <;> assumption
      · intro hc
        rcases hsign c (Option.mem_toList.1 hc) with rfl | rfl <;> contradiction
  rw [Numeral.text, Numeral.rest]
  exact List.not_mem_append hsign
    (List.not_mem_append (hdigits hn.whole) (List.not_mem_append hfraction hscale))

/-! ### Integers of a limited length -/

/-- An integer has no more digits than are converted. -/
def Numeral.IsShort (n : Numeral) : Prop := n.IsInteger → n.whole.length ≤ digitLimit

theorem continuesNumber_text {x : Exponent} (hx : x.IsProper) : continuesNumber x.text = true := by
  obtain ⟨letter, sign, ds⟩ := x
  obtain ⟨d, more, rfl, hd⟩ := hx.digits.exists_cons
  have hread : continuesNumber ('e' :: (sign.toList ++ d :: more)) = true := by
    cases sign with
    | some c => rcases hx.sign c rfl with rfl | rfl <;> exact hd
    | none =>
      have hplus : d ≠ '+' := ne_of_isDigit hd (by decide)
      have hminus : d ≠ '-' := ne_of_isDigit hd (by decide)
      simp [continuesNumber, hplus, hminus, hd]
  obtain rfl | rfl : letter = 'e' ∨ letter = 'E' := hx.letter <;> exact hread

/-- What stands behind the digits of a numeral goes on with it unless it is an integer. -/
theorem continuesNumber_rest (hn : n.IsProper) : continuesNumber n.rest = !decide n.IsInteger := by
  obtain ⟨negative, whole, fraction, exponent⟩ := n
  cases fraction with
  | some ds =>
    obtain ⟨d, more, rfl, hd⟩ := (hn.fraction ds rfl).exists_cons
    show d.isDigit = _
    simpa [Numeral.IsInteger] using hd
  | none =>
    cases exponent with
    | some x =>
      show continuesNumber x.text = _
      simpa [Numeral.IsInteger] using continuesNumber_text (hn.exponent x rfl)
    | none => rfl

theorem integerDigits_le_iff (hn : n.IsProper) :
    integerDigits (n.whole ++ n.rest) ≤ digitLimit ↔ n.IsShort := by
  obtain ⟨hwhole, hrest⟩ := Text.span_append hn.whole.digits (Numeral.any_isDigit_rest hn)
  have hhead : (n.whole ++ n.rest).head? = n.whole.head? := by
    obtain ⟨d, more, hwhole, -⟩ := hn.whole.exists_cons
    rw [hwhole]
    rfl
  rw [integerDigits, hwhole, hrest, hhead, continuesNumber_rest hn, Numeral.IsShort]
  split
  · next hzero =>
    simp [hn.noLeadingZero hzero, digitLimit]
  · by_cases hint : n.IsInteger <;> simp [hint]

theorem unsigned_text (hn : n.IsProper) :
    (if n.text.head? = some '-' then n.text.tail else n.text) = n.whole ++ n.rest := by
  obtain ⟨d, more, hwhole, hd⟩ := hn.whole.exists_cons
  have hminus : d ≠ '-' := ne_of_isDigit hd (by decide)
  rw [Numeral.text, hwhole]
  cases n.negative <;> simp [hminus]

/-- A word that is no name is a number if it is a numeral that is not too long. -/
theorem numberToken?_eq_scalar : numberToken? cs = some (.scalar v) ↔
    ∃ n : Numeral, n.IsProper ∧ n.IsShort ∧ n.text = cs ∧ n.value = v := by
  rw [numberToken?]
  constructor
  · intro h
    by_cases hle : integerDigits (if cs.head? = some '-' then cs.tail else cs) ≤ digitLimit
    · rw [if_pos hle] at h
      obtain ⟨w, hw, hv⟩ := Option.map_eq_some_iff.1 h
      obtain ⟨n, hn, rfl, rfl⟩ := number?_eq_some.1 hw
      rw [unsigned_text hn] at hle
      exact ⟨n, hn, (integerDigits_le_iff hn).1 hle, rfl, Token.scalar.inj hv⟩
    · rw [if_neg hle] at h
      exact nomatch h
  · rintro ⟨n, hn, hshort, rfl, rfl⟩
    rw [unsigned_text hn, if_pos ((integerDigits_le_iff hn).2 hshort),
      number?_eq_some.2 ⟨n, hn, rfl, rfl⟩]
    rfl

end FirmwareBuild.Json
