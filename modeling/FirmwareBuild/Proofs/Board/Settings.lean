import FirmwareBuild.Proofs.Board
import FirmwareBuild.Proofs.BoardTool
import FirmwareBuild.Proofs.Except
import Mathlib.Data.List.Nodup
import Mathlib.Data.List.Perm.Subperm

/-! Boards from settings.

Settings give a board by its name or as a table. The fields of a table are taken as they are
displayed, whatever may stand in a name. So a board from a table is denoted by how it is written,
which is what the board tool is told, exactly if its parts and parameters keep to the rules for
names: `ofSetting_denoted`. If they do not, the written board denotes another one, or none
(`ofSetting_undenoted`). -/
namespace FirmwareBuild

namespace Board

variable {b : Board} {fields : List (Text × Setting)}

/-! ### Boards that are denoted by how they are written -/

/-- Whether how a board is written is a name of the same board. -/
def IsDenoted (b : Board) : Prop := ∃ c, parse b.render = .ok c ∧ same c b = true

theorem same_iff {a b : Board} : same a b = true ↔
    a.vendor = b.vendor ∧ a.arch = b.arch ∧ a.board = b.board ∧
      a.params.length = b.params.length ∧ ∀ p ∈ a.params, Entries.get? p.1 b.params = some p.2 := by
  simp [same, and_assoc]

/-- Boards are the same with the same parameters in another order only, if the keys of the first one
are distinct. -/
theorem perm_of_same {a b : Board} (hn : (Entries.keys a.params).Nodup) (h : same a b = true) :
    a.params.Perm b.params := by
  obtain ⟨-, -, -, hlength, hget⟩ := same_iff.1 h
  have hsub : a.params ⊆ b.params := fun p hp => Entries.mem_of_get? (hget p hp)
  have hnodup : a.params.Nodup := List.Nodup.of_map Prod.fst hn
  exact (List.subperm_of_subset hnodup hsub).perm_of_length_le hlength.ge

/-- A nameable board is what its written form is read as. -/
theorem parse_own_render (hb : b.IsNameable) (hn : (Entries.keys b.params).Nodup) :
    parse b.render = .ok b := by
  have hparse := parse_render hb hn (.inl rfl)
  rwa [List.append_nil] at hparse

theorem isDenoted_iff : b.IsDenoted ↔ b.IsNameable ∧ (Entries.keys b.params).Nodup := by
  constructor
  · rintro ⟨c, hparse, hsame⟩
    obtain ⟨hnameable, hn⟩ := isNameable_of_parse? (parse_eq_ok.1 hparse)
    have hp := perm_of_same hn hsame
    obtain ⟨hvendor, harch, hboard, -⟩ := same_iff.1 hsame
    refine ⟨⟨hvendor ▸ hnameable.vendor, harch ▸ hnameable.arch, hboard ▸ hnameable.board,
      fun p hmem => hnameable.params p (hp.mem_iff.2 hmem)⟩, ?_⟩
    exact (hp.map Prod.fst).nodup_iff.1 hn
  · rintro ⟨hnameable, hn⟩
    exact ⟨b, parse_own_render hnameable hn, same_of_perm hn (.refl _)⟩

theorem IsDenoted.parse_eq (h : b.IsDenoted) : parse b.render = .ok b := by
  obtain ⟨hnameable, hn⟩ := isDenoted_iff.1 h
  exact parse_own_render hnameable hn

/-! ### Boards from tables -/

/-- A field of a table as a text. -/
def shownField (fields : List (Text × Setting)) (name : Text) : Text :=
  ((Entries.get? name fields).map Setting.display).getD []

/-- The fields of the table of parameters, if there is one. -/
def paramFields (fields : List (Text × Setting)) : List (Text × Setting) :=
  match Entries.get? "params" fields with
  | some (.table params) => params
  | _ => []

/-- The board with the fields of a table as they are displayed. -/
def described (fields : List (Text × Setting)) : Board where
  vendor := shownField fields "vendor"
  arch := shownField fields "arch"
  board := shownField fields "board"
  params := (paramFields fields).map fun f => (f.1, f.2.display)

theorem textOf_eq_ok {s : Setting} {t : Text} (h : textOf s = .ok t) : s.display = t := by
  rw [textOf, Setting.displayed] at h
  cases ho : s.obstacle? depthLimit with
  | none =>
    rw [ho] at h
    exact Except.ok.inj h
  | some e =>
    rw [ho] at h
    exact nomatch h

theorem fieldText_eq_ok {name t : Text} (h : fieldText fields name = .ok t) :
    shownField fields name = t := by
  rw [fieldText] at h
  rw [shownField]
  cases hs : Entries.get? name fields with
  | none =>
    rw [hs] at h
    exact nomatch h
  | some s =>
    rw [hs] at h
    exact textOf_eq_ok h

theorem paramsOfSetting_eq_ok {params : List (Text × Text)}
    (h : paramsOfSetting (Entries.get? "params" fields) = .ok params) :
    (paramFields fields).map (fun f => (f.1, f.2.display)) = params := by
  rw [paramFields]
  cases hs : Entries.get? (Text.ofString "params") fields with
  | none =>
    rw [hs] at h
    exact Except.ok.inj h
  | some s =>
    rw [hs] at h
    cases s with
    | table fs =>
      refine map_eq_of_mapM_ok h fun f _ p hp => ?_
      obtain ⟨v, hv, rfl⟩ := map_eq_ok.1 hp
      rw [textOf_eq_ok hv]
    | _ => exact nomatch h

/-- A table gives no other board than the one with its fields. -/
theorem ofFields_eq_ok (h : ofFields fields = .ok b) : b = described fields := by
  rw [ofFields] at h
  dsimp only at h
  split at h
  · obtain ⟨_, hthrow, -⟩ := bind_eq_ok.1 h
    exact nomatch hthrow
  · obtain ⟨vendor, hvendor, h⟩ := bind_eq_ok.1 h
    obtain ⟨arch, harch, h⟩ := bind_eq_ok.1 h
    obtain ⟨board, hboard, h⟩ := bind_eq_ok.1 h
    obtain ⟨params, hparams, h⟩ := bind_eq_ok.1 h
    obtain rfl := Except.ok.inj h
    rw [described, fieldText_eq_ok hvendor, fieldText_eq_ok harch, fieldText_eq_ok hboard,
      paramsOfSetting_eq_ok hparams]

/-- A board comes from a name or from a table. -/
theorem ofSetting_eq_ok {s : Setting} (h : ofSetting s = .ok b) :
    (∃ name, s = .text name ∧ parse name = .ok b) ∨
      ∃ fields, s = .table fields ∧ b = described fields := by
  rw [ofSetting.eq_def] at h
  split at h
  · next name =>
    refine .inl ⟨name, rfl, ?_⟩
    cases hp : parse name with
    | ok c =>
      rw [hp, mapError_ok] at h
      rw [Except.ok.inj h]
    | error e =>
      rw [hp] at h
      exact nomatch h
  · next fields => exact .inr ⟨fields, rfl, ofFields_eq_ok h⟩
  · split at h <;> exact nomatch h

/-! ### Which settings give a board that is denoted -/

/-- Whether the parts and parameters that a setting gives for a board keep to the rules for names.
What is given as a name does; a table that comes from a file never has a key twice. -/
def KeepsToNames : Setting → Prop
  | .text _ => True
  | .table fields =>
    IsPart (shownField fields "vendor") ∧ IsPart (shownField fields "arch") ∧
      IsPart (shownField fields "board") ∧
      (∀ f ∈ paramFields fields, IsTerm f.1 ∧ IsTerm f.2.display) ∧
      (Entries.keys (paramFields fields)).Nodup
  | _ => False

instance : DecidablePred KeepsToNames
  | .text _ => inferInstanceAs (Decidable True)
  | .table _ => inferInstanceAs (Decidable (_ ∧ _ ∧ _ ∧ _ ∧ _))
  | .null | .bool _ | .int _ | .real _ | .date _ | .clock _ | .moment .. | .list _ =>
    inferInstanceAs (Decidable False)

theorem isDenoted_described : (described fields).IsDenoted ↔ KeepsToNames (.table fields) := by
  have hkeys : Entries.keys (described fields).params = Entries.keys (paramFields fields) := by
    simp [Entries.keys, described]
  rw [isDenoted_iff, hkeys]
  constructor
  · rintro ⟨⟨hvendor, harch, hboard, hparams⟩, hn⟩
    refine ⟨hvendor, harch, hboard, fun f hf => ?_, hn⟩
    exact hparams (f.1, f.2.display) (List.mem_map.2 ⟨f, hf, rfl⟩)
  · rintro ⟨hvendor, harch, hboard, hparams, hn⟩
    refine ⟨⟨hvendor, harch, hboard, fun p hp => ?_⟩, hn⟩
    obtain ⟨f, hf, rfl⟩ := List.mem_map.1 hp
    exact hparams f hf

/-- **Which settings give a board that its name denotes.** The board tool is told how the board of
a setting is written. This denotes the board if and only if the setting keeps to the rules for
names, as one that is a name always does, and then it is read as the very same board. -/
theorem ofSetting_denoted {s : Setting} (h : ofSetting s = .ok b) :
    (∀ t : BoardTool, t.board = b → BoardTool.valuesOf "-fqbn" t.command = [b.render]) ∧
    (b.IsDenoted ↔ KeepsToNames s) ∧ (KeepsToNames s → parse b.render = .ok b) := by
  have hdenoted : b.IsDenoted ↔ KeepsToNames s := by
    rcases ofSetting_eq_ok h with ⟨name, rfl, hparse⟩ | ⟨fields, rfl, rfl⟩
    · exact iff_of_true (isDenoted_iff.2 (isNameable_of_parse? (parse_eq_ok.1 hparse))) trivial
    · exact isDenoted_described
  refine ⟨?_, hdenoted, fun hs => (hdenoted.2 hs).parse_eq⟩
  rintro t rfl
  exact BoardTool.valuesOf_fqbn t

/-- A board with a parameter whose value is a number, and one whose value is a truth value. -/
def nano : Setting :=
  .table [("board", .text "nano"), ("vendor", .text "arduino"), ("arch", .text "avr"),
    ("params", .table [("cpu", .int 328), ("old", .bool true)])]

theorem ofSetting_denoted_nano :
    ofSetting nano = .ok ⟨"arduino", "avr", "nano", [("cpu", "328"), ("old", "True")]⟩ ∧
    parse "arduino:avr:nano:cpu=328,old=True" =
      .ok ⟨"arduino", "avr", "nano", [("cpu", "328"), ("old", "True")]⟩ := by
  have hnano : ofSetting nano =
      .ok ⟨"arduino", "avr", "nano", [("cpu", "328"), ("old", "True")]⟩ := by decide +kernel
  have hkeeps : KeepsToNames nano := by decide +kernel
  exact ⟨hnano, (ofSetting_denoted hnano).2.2 hkeeps⟩

/-- **A table is not held against the rules for names.** How its board is written denotes another
board if a part has a colon, and none if parts are empty. -/
theorem ofSetting_undenoted :
    (ofSetting (.table [("vendor", .text "arduino"), ("arch", .text "avr"),
        ("board", .text "nano:cpu=old")]) = .ok ⟨"arduino", "avr", "nano:cpu=old", []⟩ ∧
      parse (render ⟨"arduino", "avr", "nano:cpu=old", []⟩) =
        .ok ⟨"arduino", "avr", "nano", [("cpu", "old")]⟩) ∧
    ofSetting (.table [("vendor", .text ""), ("arch", .text ""), ("board", .text "target")]) =
      .ok ⟨"", "", "target", []⟩ ∧
    ¬IsDenoted ⟨"", "", "target", []⟩ := by
  refine ⟨⟨by decide +kernel, by decide +kernel⟩, by decide +kernel, ?_⟩
  rintro ⟨c, hc, -⟩
  have hrefused : parse (render ⟨"", "", "target", []⟩) = .error (.malformed "::target") := by
    decide +kernel
  rw [hrefused] at hc
  exact nomatch hc

end Board
end FirmwareBuild
