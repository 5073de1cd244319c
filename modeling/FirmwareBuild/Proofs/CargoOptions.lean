import FirmwareBuild.CargoOptions
import FirmwareBuild.Proofs.Except
import Mathlib.Data.List.Basic

/-! What a scan of arguments passes on.

The options that a build sets by itself are withheld: no argument that is passed on spells one of
them, with its value behind an equals sign or without. One step passes on its argument or nothing
(`step_cases`), and the scan passes on a part of the arguments in their order (`scan_forwards`). -/
namespace FirmwareBuild

theorem Text.eq_of_toString? {t : Text} {s : String} (h : t.toString? = some s) : t = s := by
  obtain ⟨cs, hcs, rfl⟩ := Option.map_eq_some_iff.1 h
  show t = Text.ofChars (String.ofList cs).toList
  rw [String.toList_ofList]
  clear h
  induction t generalizing cs with
  | nil =>
    obtain rfl : [] = cs := by simpa using hcs
    rfl
  | cons c rest ih =>
    cases c with
    | char c =>
      obtain ⟨ds, hds, rfl⟩ : ∃ ds, rest.mapM CodePoint.char? = some ds ∧ c :: ds = cs := by
        simpa [CodePoint.char?, Option.bind_eq_some_iff] using hcs
      rw [ih ds hds]
      rfl
    | half place => simp [CodePoint.char?] at hcs

namespace CargoOptions

/-! ### Options and words -/

/-- Whether a word is an option, alone or with a value behind an equals sign. -/
def spells (option word : Text) : Bool :=
  word == option || (Text.after? (option ++ "=") word).isSome

/-- A word that spells an option begins with it. -/
theorem isPrefix_of_spells {option word : Text} (h : spells option word = true) :
    option <+: word := by
  rw [spells, Bool.or_eq_true, beq_iff_eq, Option.isSome_iff_exists] at h
  rcases h with rfl | ⟨v, hv⟩
  · exact List.prefix_rfl
  · rw [Text.after?, List.isPrefixOf?_eq_some_iff_append_eq] at hv
    exact ⟨"=" ++ v, by rw [← hv, List.append_assoc]⟩

/-- The options that a build sets by itself. -/
def withheld : List Text := ["--target", "--target-board", "--message-format"]

/-- A word that begins with two dashes. -/
def IsLong (word : Text) : Prop := [.char '-', .char '-'] <+: word

instance (word : Text) : Decidable (IsLong word) := inferInstanceAs (Decidable (_ <+: _))

theorem isLong_of_spells {option word : Text} (ho : option ∈ withheld)
    (h : spells option word = true) : IsLong word := by
  have hlong : ∀ option ∈ withheld, IsLong option := by decide
  exact (hlong option ho).trans (isPrefix_of_spells h)

/-- A word that is none of these options. -/
def IsForwardable (word : Text) : Prop := ∀ option ∈ withheld, spells option word = false

instance (word : Text) : Decidable (IsForwardable word) :=
  inferInstanceAs (Decidable (∀ option ∈ withheld, _))

theorem isForwardable_iff {word : Text} : IsForwardable word ↔
    (word ≠ "--target" ∧ Text.after? "--target=" word = none) ∧
      (word ≠ "--target-board" ∧ Text.after? "--target-board=" word = none) ∧
      (word ≠ "--message-format" ∧ Text.after? "--message-format=" word = none) := by
  simp only [IsForwardable, withheld, List.forall_mem_cons, List.not_mem_nil, false_implies,
    implies_true, and_true, spells, Bool.or_eq_false_iff, beq_eq_false_iff_ne, ne_eq,
    Option.isSome_eq_false_iff, Option.isNone_iff_eq_none]
  rfl

/-- Whether an argument is taken for one of these options. -/
def Word.isWithheld : Word → Bool
  | .flag f | .value f _ => f != .color
  | _ => false

theorem isForwardable_of_classify {word : Text} (h : (classify word).isWithheld = false) :
    IsForwardable word := by
  rw [isForwardable_iff]
  unfold classify at h
  split at h
  · exact nomatch h
  · next hTarget =>
    split at h
    · exact nomatch h
    · next hTargetFlag =>
      split at h
      · exact nomatch h
      · next hBoard =>
        split at h
        · exact nomatch h
        · next hBoardFlag =>
          split at h
          · exact nomatch h
          · next hFormat =>
            split at h
            · exact nomatch h
            · next hFormatFlag =>
              exact ⟨⟨hTargetFlag, Option.eq_none_iff_forall_ne_some.2 hTarget⟩,
                ⟨hBoardFlag, Option.eq_none_iff_forall_ne_some.2 hBoard⟩,
                ⟨hFormatFlag, Option.eq_none_iff_forall_ne_some.2 hFormat⟩⟩

/-- The name of a choice of color is no option. -/
theorem isForwardable_of_withColor {shell shell' : Shell} {choice : Text}
    (h : shell.withColor choice = .ok shell') : IsForwardable choice := by
  rw [Shell.withColor] at h
  split at h
  · next color hcolor =>
    rw [ColorChoice.ofText?] at hcolor
    split at hcolor
    · next hs => exact Text.eq_of_toString? hs ▸ by decide
    · next hs => exact Text.eq_of_toString? hs ▸ by decide
    · next hs => exact Text.eq_of_toString? hs ▸ by decide
    · exact nomatch hcolor
  · exact nomatch h

/-! ### Scanning -/

variable {p p' : Progress} {pending next : Option Flag} {arg : Text} {args : List Text}

/-- What may become of one argument that is read: nothing, or it is passed on, or it gives the
board or the format of messages. -/
inductive Reads (p : Progress) (arg : Text) : Progress → Prop
  | dropped {p' : Progress} (ho : p'.options = p.options) : Reads p arg p'
  | forwarded {q : Progress} (ho : q.options = p.options) (harg : IsForwardable arg) :
      Reads p arg (q.forward arg)
  | board {name : Text} {b : Board} (hb : Board.parse? name = some b) : Reads p arg (p.withBoard b)
  | format (value : Text) : Reads p arg (p.withMessageFormat value)

theorem reads_of_take {f : Flag} {v : Text} (h : p.take f v = .ok p')
    (hcolor : f = .color → IsForwardable arg) :
    Reads p arg (if f = .color then p'.forward arg else p') := by
  cases f with
  | target => exact .dropped (by rw [← Except.ok.inj h]; rfl)
  | board =>
    obtain ⟨b, hb, rfl⟩ := map_eq_ok.1 h
    cases hname : Board.parse? v with
    | some b' =>
      rw [Board.parse, hname] at hb
      obtain rfl : b' = b := Except.ok.inj hb
      exact .board hname
    | none =>
      rw [Board.parse, hname] at hb
      exact nomatch hb
  | messageFormat =>
    obtain rfl := Except.ok.inj h
    exact .format v
  | color =>
    obtain ⟨shell, -, rfl⟩ := map_eq_ok.1 h
    exact .forwarded rfl (hcolor rfl)

theorem reads_atFlag {f : Flag} (hcolor : f = .color → IsForwardable arg) :
    Reads p arg (atFlag p f arg) := by
  cases f with
  | color => exact .forwarded rfl (hcolor rfl)
  | target => exact .dropped rfl
  | board => exact .dropped rfl
  | messageFormat => exact .dropped rfl

theorem step_reads (h : step p pending arg = (.ok next, p')) : Reads p arg p' := by
  cases pending with
  | some f =>
    rw [step] at h
    split at h
    · next q hq =>
      rw [← (Prod.mk.inj h).2]
      refine reads_of_take hq fun hf => ?_
      -- A color that can be taken has one of three names.
      subst hf
      obtain ⟨shell, hshell, -⟩ := map_eq_ok.1 hq
      cases hcolor : p.shell.withColor arg with
      | ok shell => exact isForwardable_of_withColor hcolor
      | error e =>
        rw [hcolor] at hshell
        exact nomatch hshell
    · exact nomatch h
  | none =>
    simp only [step] at h
    split at h
    · next f hf =>
      rw [← (Prod.mk.inj h).2]
      exact reads_atFlag fun hcolor => isForwardable_of_classify (by rw [hf, hcolor]; rfl)
    · exact nomatch h
    · rw [← (Prod.mk.inj h).2]
      exact .dropped rfl
    · next f v _ _ hf =>
      split at h
      · next q hq =>
        rw [← (Prod.mk.inj h).2]
        exact reads_of_take hq fun hcolor => isForwardable_of_classify (by rw [hf, hcolor]; rfl)
      · exact nomatch h
    · next v hv =>
      rw [← (Prod.mk.inj h).2]
      exact .forwarded rfl (isForwardable_of_classify (by rw [hv]; rfl))
    · next hother =>
      rw [← (Prod.mk.inj h).2]
      exact .forwarded rfl (isForwardable_of_classify (by rw [hother]; rfl))

theorem Reads.cargoArgs (h : Reads p arg p') :
    p'.options.cargoArgs = p.options.cargoArgs ∨
      p'.options.cargoArgs = p.options.cargoArgs ++ [arg] ∧ IsForwardable arg := by
  cases h with
  | dropped ho => exact .inl (by rw [ho])
  | @forwarded q ho harg =>
    refine .inr ⟨?_, harg⟩
    show q.options.cargoArgs ++ [arg] = _
    rw [ho]
  | board hb => exact .inl rfl
  | format value => exact .inl rfl

theorem Reads.targetBoard (h : Reads p arg p') :
    p'.options.targetBoard = p.options.targetBoard ∨
      ∃ name b, Board.parse? name = some b ∧ p'.options.targetBoard = some b := by
  cases h with
  | dropped ho => exact .inl (by rw [ho])
  | @forwarded q ho harg =>
    show q.options.targetBoard = _ ∨ _
    exact .inl (by rw [ho])
  | @board name b hb => exact .inr ⟨name, b, hb, rfl⟩
  | format value => exact .inl rfl

theorem unfinished_eq_ok {o : CargoOptions} (h : unfinished p pending = .ok o) : o = p.options := by
  unfold unfinished at h
  split at h
  · exact nomatch h
  · exact (Except.ok.inj h).symm

/-- The arguments that a scan passes on are some of those that it reads, in their order. -/
theorem scan_forwards {o : CargoOptions} (h : scan p pending args = (.ok o, p')) :
    ∃ forwarded, o.cargoArgs = p.options.cargoArgs ++ forwarded ∧ forwarded.Sublist args ∧
      ∀ word ∈ forwarded, IsForwardable word := by
  induction args generalizing p pending with
  | nil =>
    have ho := unfinished_eq_ok (Prod.mk.inj h).1
    exact ⟨[], by rw [ho, List.append_nil], .slnil, nofun⟩
  | cons arg rest ih =>
    rw [scan] at h
    split at h
    · next next q hs =>
      obtain ⟨forwarded, ho, hsub, hall⟩ := ih h
      rcases (step_reads hs).cargoArgs with hsame | ⟨hadded, harg⟩
      · exact ⟨forwarded, hsame ▸ ho, hsub.cons arg, hall⟩
      · refine ⟨arg :: forwarded, ?_, hsub.cons_cons arg, List.forall_mem_cons.2 ⟨harg, hall⟩⟩
        rw [ho, hadded, List.append_assoc, List.singleton_append]
    · exact nomatch h

/-- A board that is there behind a scan was there before it, or has been named. -/
theorem scan_targetBoard {o : CargoOptions} (h : scan p pending args = (.ok o, p')) :
    o.targetBoard = p.options.targetBoard ∨
      ∃ name b, Board.parse? name = some b ∧ o.targetBoard = some b := by
  induction args generalizing p pending with
  | nil => exact .inl (by rw [unfinished_eq_ok (Prod.mk.inj h).1])
  | cons arg rest ih =>
    rw [scan] at h
    split at h
    · next next q hs =>
      rcases ih h with hsame | hnamed
      · rw [hsame]
        exact (step_reads hs).targetBoard
      · exact .inr hnamed
    · exact nomatch h

end CargoOptions
end FirmwareBuild
