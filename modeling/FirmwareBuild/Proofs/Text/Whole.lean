import FirmwareBuild.Text.CodePoint
import Mathlib.Data.List.Chain

/-! Texts without split pairs.

Two halves of a pair may stand side by side in a text and stay two code points, but text that is
encoded in units of 16 bits cannot tell them from the character of the pair. A whole text has no
such place. Characters alone are whole, and so are texts in which no half is a first one. Any text
becomes whole when such halves are joined, and a whole one stays as it is (`isWhole_joined`,
`joined_of_isWhole`). -/
namespace FirmwareBuild

namespace CodePoint

/-- A half that may begin a pair. -/
def isFirstHalf : CodePoint → Bool
  | .char _ => false
  | .half place => decide (place.val < 0x400)

theorem pair?_of_isFirstHalf {a : CodePoint} (h : a.isFirstHalf = false) (b : CodePoint) :
    a.pair? b = none := by
  cases a with
  | char c => rfl
  | half high =>
    cases b with
    | char c => rfl
    | half low =>
      have hhigh : ¬high.val < 0x400 := by simpa [isFirstHalf] using h
      rw [pair?, if_neg fun hp => hhigh hp.1]

/-- No code point is both the second half of a pair and the first half of another one. -/
theorem pair?_eq_none_of_isFirstHalf {b : CodePoint} (h : b.isFirstHalf = true) (a : CodePoint) :
    a.pair? b = none := by
  cases b with
  | char c => cases a <;> rfl
  | half low =>
    have hlow : low.val < 0x400 := by simpa [isFirstHalf] using h
    cases a with
    | char c => rfl
    | half high => rw [pair?, if_neg fun hp => absurd hp.2 (by omega)]

/-- What a pair makes is a character. -/
theorem exists_of_pair?_eq_some {a b c : CodePoint} (h : a.pair? b = some c) :
    ∃ high low : Fin 0x800, a = .half high ∧ b = .half low ∧ high.val < 0x400 ∧ 0x400 ≤ low.val ∧
      c = .char (Char.ofNat (0xfc00 + high.val * 0x400 + low.val)) := by
  unfold pair? at h
  split at h
  · next high low =>
    split at h
    · next hp => exact ⟨high, low, rfl, rfl, hp.1, hp.2, (Option.some.inj h).symm⟩
    · exact nomatch h
  · exact nomatch h

end CodePoint

namespace Text

/-- A text in which no code point makes a pair with the next one. -/
def IsWhole (s : Text) : Prop := s.IsChain fun a b => a.pair? b = none

instance (s : Text) : Decidable (IsWhole s) := inferInstanceAs (Decidable (List.IsChain _ s))

/-- A text in which no half may begin a pair. -/
def BeginsNoPair (s : Text) : Prop := ∀ c ∈ s, c.isFirstHalf = false

theorem BeginsNoPair.isWhole {s : Text} (h : s.BeginsNoPair) : s.IsWhole := by
  induction s with
  | nil => exact .nil
  | cons c rest ih =>
    refine List.isChain_cons.2 ⟨fun d _ => ?_, ih fun d hd => h d (List.mem_cons_of_mem _ hd)⟩
    exact CodePoint.pair?_of_isFirstHalf (h c (List.mem_cons_self ..)) d

theorem beginsNoPair_ofChars (cs : List Char) : (ofChars cs).BeginsNoPair := by
  intro c hc
  obtain ⟨d, -, rfl⟩ := List.mem_map.1 hc
  rfl

theorem isWhole_ofChars (cs : List Char) : (ofChars cs).IsWhole := (beginsNoPair_ofChars cs).isWhole

/-- A text with the character of a pair in the place of any two halves of one that stand side by
side. -/
def joined : Text → Text
  | a :: b :: rest =>
    match a.pair? b with
    | some c => c :: joined rest
    | none => a :: joined (b :: rest)
  | s => s

/-- A joined text begins as the text does, or with a character. -/
theorem head?_joined (c : CodePoint) (rest : Text) :
    (joined (c :: rest)).head? = some c ∨ ∃ d, (joined (c :: rest)).head? = some (.char d) := by
  cases rest with
  | nil => exact .inl rfl
  | cons b rest =>
    rw [joined]
    cases hp : c.pair? b with
    | none => exact .inl rfl
    | some d =>
      obtain ⟨high, low, -, -, -, -, rfl⟩ := CodePoint.exists_of_pair?_eq_some hp
      exact .inr ⟨_, rfl⟩

theorem isWhole_joined (s : Text) : (joined s).IsWhole := by
  fun_induction joined s with
  | case1 a b rest c hp ih =>
    obtain ⟨high, low, -, -, -, -, rfl⟩ := CodePoint.exists_of_pair?_eq_some hp
    exact List.isChain_cons.2 ⟨fun _ _ => rfl, ih⟩
  | case2 a b rest hp ih =>
    refine List.isChain_cons.2 ⟨fun d hd => ?_, ih⟩
    rcases head?_joined b rest with hb | ⟨e, he⟩
    · obtain rfl : b = d := Option.some.inj (hb.symm.trans hd)
      exact hp
    · obtain rfl : .char e = d := Option.some.inj (he.symm.trans hd)
      cases a <;> rfl
  | case3 s hs =>
    cases s with
    | nil => exact .nil
    | cons c rest =>
      cases rest with
      | nil => exact .singleton c
      | cons d rest => exact (hs c d rest rfl).elim

theorem joined_of_isWhole {s : Text} (h : s.IsWhole) : joined s = s := by
  induction s with
  | nil => rfl
  | cons c rest ih =>
    obtain ⟨hnext, hrest⟩ := List.isChain_cons.1 h
    cases rest with
    | nil => rfl
    | cons d rest => rw [joined, hnext d rfl, ih hrest]

end Text
end FirmwareBuild
