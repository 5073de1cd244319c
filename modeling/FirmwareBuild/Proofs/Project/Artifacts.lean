import FirmwareBuild.Project
import FirmwareBuild.Proofs.Except
import FirmwareBuild.Proofs.Text.Lines
import Mathlib.Data.List.Basic

/-! Firmware files in a stream of messages.

A stream is what several texts are when a feed stands between each two of them. Whatever else
these are, the firmware files are those that the messages among them announce, in order:
`artifacts_intercalate`. This needs that no message is torn into several lines. A feed and a return
cannot stand in a message, but some other line breaks can, and then a file is missing
(`artifacts_torn`). -/
namespace FirmwareBuild

/-! ### Lines -/

namespace Text

/-- The lines that are not empty. -/
def solidLines (s : Text) : List Text := (lines s).filter (· ≠ [])

theorem solidLines_append_feed (s t : Text) :
    solidLines (s ++ .char '\n' :: t) = solidLines s ++ solidLines t := by
  obtain ⟨extra, hextra, h⟩ := lines_append_feed s t
  have hnone : extra.filter (· ≠ []) = [] :=
    List.filter_eq_nil_iff.2 fun line hline => by simp [hextra line hline]
  rw [solidLines, h, List.filter_append, List.filter_append, hnone, List.nil_append]
  rfl

/-- Lines that are not empty stay what they are when texts are joined. -/
theorem solidLines_intercalate (ts : List Text) :
    solidLines (intercalate "\n" ts) = ts.flatMap solidLines := by
  induction ts with
  | nil => rfl
  | cons t rest ih =>
    cases rest with
    | nil => rw [List.flatMap_singleton, intercalate, List.intercalate_singleton]
    | cons u rest =>
      have hjoin : intercalate "\n" (t :: u :: rest) =
          t ++ .char '\n' :: intercalate "\n" (u :: rest) := by
        rw [intercalate, List.intercalate_cons_cons, List.append_assoc]
        rfl
      rw [hjoin, solidLines_append_feed, ih]
      rfl

end Text

/-! ### Messages -/

namespace Json

/-- The text that a value is. -/
def text? : Json → Option Text
  | .text s => some s
  | _ => none

/-- The texts that a value lists. -/
def texts? : Json → Option (List Text)
  | .list items => items.mapM text?
  | _ => none

theorem text?_eq_some {v : Json} {s : Text} : v.text? = some s ↔ v = .text s := by
  cases v <;> simp [text?]

theorem texts?_eq_some {v : Json} {ss : List Text} : v.texts? = some ss ↔ v = ofTexts ss := by
  cases v with
  | list items =>
    rw [texts?, mapM_eq_some, ofTexts, list.injEq]
    constructor
    · intro h
      induction items generalizing ss with
      | nil =>
        rw [List.map_eq_nil_iff.1 h.symm]
        rfl
      | cons item items ih =>
        obtain ⟨s, rest, rfl, hs, hrest⟩ := List.map_eq_cons_iff.1 h.symm
        rw [List.map_cons, ← ih hrest.symm, text?_eq_some.1 hs.symm]
    · rintro rfl
      rw [List.map_map]
      rfl
  | _ => exact ⟨nofun, nofun⟩

theorem same_text {v : Json} {s : Text} : v.same (.text s) = true ↔ v = .text s := by
  cases v <;> simp [same, sameScalar, integer?]

end Json

namespace Project

/-- The file names that a text announces, if it is a message about a program of a package. -/
def announced? (package text : Text) : Option (List Text) := do
  let message ← (Json.parse text).toOption
  let reason ← (← message.field? "reason").text?
  let owner ← (← message.field? "package_id").text?
  let kinds ← (← (← message.field? "target").field? "kind").texts?
  let files ← (← message.field? "filenames").texts?
  if reason = "compiler-artifact" ∧ owner = package ∧ kinds.contains "bin" then some files else none

variable {package text : Text}

theorem announced?_eq_some {files : List Text} :
    announced? package text = some files ↔ ∃ message target kinds,
      Json.parse text = .ok message ∧
      message.field? "reason" = some (.text "compiler-artifact") ∧
      message.field? "package_id" = some (.text package) ∧
      message.field? "target" = some target ∧
      target.field? "kind" = some (Json.ofTexts kinds) ∧ kinds.contains "bin" = true ∧
      message.field? "filenames" = some (Json.ofTexts files) := by
  simp only [announced?, Option.bind_eq_bind, Option.bind_eq_some_iff, Json.text?_eq_some,
    Json.texts?_eq_some, Option.ite_none_right_eq_some]
  constructor
  · rintro ⟨message, hmessage, _, hreason, _, rfl, _, howner, _, rfl, target, htarget, _, hkind,
      kinds, rfl, _, hfiles, _, rfl, ⟨rfl, rfl, hbin⟩, hsame⟩
    obtain rfl := Option.some.inj hsame
    exact ⟨message, target, kinds, eq_ok_of_toOption hmessage, hreason, howner, htarget, hkind,
      hbin, hfiles⟩
  · rintro ⟨message, target, kinds, hmessage, hreason, howner, htarget, hkind, hbin, hfiles⟩
    exact ⟨message, toOption_eq_some hmessage, _, hreason, _, rfl, _, howner, _, rfl, target,
      htarget, _, hkind, kinds, rfl, _, hfiles, files, rfl, ⟨rfl, rfl, hbin⟩, rfl⟩

/-- What a message looks like: as far as they are there, its target is an object, and the kinds of
that and the file names are texts. -/
def HasShape (message : Json) : Prop :=
  (∀ target ∈ message.field? "target",
    (∃ fields, target = .object fields) ∧ ∀ kinds ∈ target.field? "kind", kinds.texts?.isSome) ∧
  ∀ files ∈ message.field? "filenames", files.texts?.isSome

/-- A text is no value at all, or one of that shape. Its nesting is within the limit. -/
def IsProper (text : Text) : Prop :=
  match Json.parse text with
  | .ok message => HasShape message
  | .error e => e ≠ .tooDeep

instance decidableIsObject : (v : Json) → Decidable (∃ fields, v = .object fields)
  | .object fields => .isTrue ⟨fields, rfl⟩
  | .null | .bool _ | .int _ | .real _ | .text _ | .list _ => .isFalse nofun

instance : DecidablePred HasShape := fun _ => inferInstanceAs (Decidable (_ ∧ _))

instance (text : Text) : Decidable (IsProper text) :=
  match h : Json.parse text with
  | .ok message => decidable_of_iff (HasShape message) (by rw [IsProper, h])
  | .error e => decidable_of_iff (e ≠ .tooDeep) (by rw [IsProper, h])

theorem isProgram_object (fields : List (Text × Json)) :
    isProgram (some (.object fields)) =
      ((Entries.get? "kind" fields).map holdsProgram).getD (.ok false) := by
  cases fields with
  | nil => rfl
  | cons f rest =>
    have hvoid : ¬Target.isVoid (.object (f :: rest)) = true := Bool.false_ne_true
    rw [isProgram, if_neg hvoid]
    cases Entries.get? "kind" (f :: rest) <;> rfl

theorem holdsProgram_ofTexts (kinds : List Text) :
    holdsProgram (Json.ofTexts kinds) = .ok (kinds.contains "bin") := by
  rw [Json.ofTexts, holdsProgram, List.any_map, List.contains_eq_any_beq]
  rfl

theorem filesOf_ofTexts (files : List Text) :
    filesOf (some (Json.ofTexts files)) = .ok (files.map Path.ofText) := by
  show (files.map Json.text).mapM fileOf = _
  rw [mapM_eq_ok, List.map_map, List.map_map]
  rfl

theorem concerns_eq_true {fields : List (Text × Json)} :
    concerns fields (.text package) = true ↔
      Entries.get? "reason" fields = some (.text "compiler-artifact") ∧
      Entries.get? "package_id" fields = some (.text package) := by
  have hget : ∀ key s, ((Entries.get? key fields).getD .null).same (.text s) = true ↔
      Entries.get? key fields = some (.text s) := by
    intro key s
    rw [Json.same_text]
    cases Entries.get? key fields with
    | none => exact ⟨nofun, nofun⟩
    | some v => exact (Option.some_inj).symm
  rw [concerns, Bool.and_eq_true, hget, hget]

theorem artifactsOfLine_object {fields : List (Text × Json)}
    (hmessage : Json.parse text = .ok (.object fields))
    (hreason : Entries.get? "reason" fields = some (.text "compiler-artifact"))
    (howner : Entries.get? "package_id" fields = some (.text package)) :
    artifactsOfLine (.text package) text = isProgram (Entries.get? "target" fields) >>= fun b =>
      if b then filesOf (Entries.get? "filenames" fields) else .ok [] := by
  rw [artifactsOfLine, hmessage]
  dsimp only
  rw [if_pos (concerns_eq_true.2 ⟨hreason, howner⟩)]
  rfl

/-- A message counts whatever else it says. -/
theorem artifactsOfLine_of_announced {files : List Text}
    (h : announced? package text = some files) :
    artifactsOfLine (.text package) text = .ok (files.map Path.ofText) := by
  obtain ⟨message, target, kinds, hmessage, hreason, howner, htarget, hkind, hbin, hfiles⟩ :=
    announced?_eq_some.1 h
  cases message with
  | object fields =>
    cases target with
    | object inner =>
      rw [Json.field?] at hreason howner htarget hkind hfiles
      rw [artifactsOfLine_object hmessage hreason howner, htarget, isProgram_object, hkind, hfiles,
        Option.map_some, Option.getD_some, holdsProgram_ofTexts, hbin]
      exact filesOf_ofTexts files
    | _ => exact nomatch hkind
  | _ => exact nomatch hreason

/-- Whether a target is a program can be told from a message of that shape. -/
theorem exists_isProgram {message : Json} (h : HasShape message) :
    ∃ b, isProgram (message.field? "target") = .ok b ∧ (b = true → ∃ target kinds,
      message.field? "target" = some target ∧ target.field? "kind" = some (Json.ofTexts kinds) ∧
      kinds.contains "bin" = true) := by
  cases htarget : message.field? (Text.ofString "target") with
  | none => exact ⟨false, rfl, nofun⟩
  | some target =>
    obtain ⟨⟨fields, rfl⟩, hkinds⟩ := h.1 target htarget
    rw [isProgram_object]
    cases hkind : Entries.get? (Text.ofString "kind") fields with
    | none => exact ⟨false, rfl, nofun⟩
    | some value =>
      obtain ⟨kinds, hvalue⟩ := Option.isSome_iff_exists.1 (hkinds value hkind)
      rw [Json.texts?_eq_some.1 hvalue] at hkind ⊢
      exact ⟨_, holdsProgram_ofTexts kinds, fun hbin => ⟨_, kinds, rfl, hkind, hbin⟩⟩

/-- An object that announces nothing counts for nothing, even if it concerns the package. -/
theorem artifactsOfLine_object_of_not_announced {fields : List (Text × Json)}
    (hmessage : Json.parse text = .ok (.object fields)) (hshape : HasShape (.object fields))
    (h : announced? package text = none) : artifactsOfLine (.text package) text = .ok [] := by
  by_cases hc : concerns fields (.text package) = true
  · obtain ⟨hreason, howner⟩ := concerns_eq_true.1 hc
    obtain ⟨b, hb, hprogram⟩ := exists_isProgram hshape
    rw [Json.field?] at hb
    rw [artifactsOfLine_object hmessage hreason howner, hb]
    cases b with
    | false => rfl
    | true =>
      -- It is about a program, so it can only lack the names of its files.
      obtain ⟨target, kinds, htarget, hkind, hbin⟩ := hprogram rfl
      cases hfiles : Entries.get? (Text.ofString "filenames") fields with
      | none => rfl
      | some value =>
        obtain ⟨files, hvalue⟩ := Option.isSome_iff_exists.1 (hshape.2 value hfiles)
        rw [Json.texts?_eq_some.1 hvalue] at hfiles
        have hsome := announced?_eq_some.2
          ⟨_, target, kinds, hmessage, hreason, howner, htarget, hkind, hbin, hfiles⟩
        exact nomatch h.symm.trans hsome
  · rw [artifactsOfLine, hmessage]
    exact if_neg hc

/-- Any other text than a message about a program counts for nothing. -/
theorem artifactsOfLine_of_not_announced (hproper : IsProper text)
    (h : announced? package text = none) :
    artifactsOfLine (.text package) text = .ok [] := by
  rw [IsProper] at hproper
  cases hmessage : Json.parse text with
  | error e =>
    rw [hmessage] at hproper
    rw [artifactsOfLine, hmessage]
    cases e with
    | tooDeep => exact absurd rfl hproper
    | _ => rfl
  | ok message =>
    rw [hmessage] at hproper
    cases message with
    | object fields => exact artifactsOfLine_object_of_not_announced hmessage hproper h
    | _ => rw [artifactsOfLine, hmessage]

theorem artifactsOfLine_eq (hproper : IsProper text) :
    artifactsOfLine (.text package) text =
      .ok (((announced? package text).getD []).map Path.ofText) := by
  cases h : announced? package text with
  | none => exact artifactsOfLine_of_not_announced hproper h
  | some files => exact artifactsOfLine_of_announced h

/-! ### Streams -/

/-- A text is one line, or neither it nor one of its lines is a message that counts. -/
def IsUntorn (package text : Text) : Prop :=
  (∀ c ∈ text, Text.isLineBreak c = false) ∨
    announced? package text = none ∧
      ∀ line ∈ Text.lines text, IsProper line ∧ announced? package line = none

instance : Decidable (IsUntorn package text) := inferInstanceAs (Decidable (_ ∨ _ ∧ _))

/-- The artifacts of a stream are those that its lines announce. -/
theorem artifacts_eq {stream : Text} (h : ∀ line ∈ Text.lines stream, IsProper line) :
    artifacts stream (.text package) =
      .ok (((Text.lines stream).filterMap (announced? package)).flatten.map Path.ofText) := by
  have hlines : (Text.lines stream).mapM (artifactsOfLine (.text package)) = .ok
      ((Text.lines stream).map fun line => ((announced? package line).getD []).map Path.ofText) :=
    mapM_of_forall_ok fun line hline => artifactsOfLine_eq (h line hline)
  rw [artifacts, hlines]
  show Except.ok _ = _
  congr 1
  induction Text.lines stream with
  | nil => rfl
  | cons line rest ih =>
    rw [List.map_cons, List.flatten_cons, ih, List.filterMap_cons]
    cases announced? package line with
    | none => rfl
    | some files => exact List.map_append.symm

theorem filterMap_lines (stream : Text) :
    (Text.lines stream).filterMap (announced? package) =
      (Text.solidLines stream).filterMap (announced? package) := by
  rw [Text.solidLines, List.filterMap_filter]
  refine List.filterMap_congr fun line _ => ?_
  by_cases hline : line = []
  · subst hline
    rfl
  · rw [if_pos (decide_eq_true hline)]

/-- What the lines of a text announce is what it announces itself, if it is not torn. -/
theorem filterMap_solidLines (h : IsUntorn package text) :
    (Text.solidLines text).filterMap (announced? package) = (announced? package text).toList := by
  rw [← filterMap_lines]
  rcases h with hone | ⟨hnone, hlines⟩
  · rw [Text.lines_eq_of_no_break hone]
    by_cases htext : text = []
    · subst htext
      rfl
    · rw [if_neg htext, List.filterMap_eq_flatMap_toList, List.flatMap_singleton]
  · rw [hnone, List.filterMap_eq_nil_iff.2 fun line hline => (hlines line hline).2]
    rfl

/-- The lines of a text that is not torn are proper as it is. -/
theorem isProper_of_mem_lines (hproper : IsProper text) (h : IsUntorn package text) {line : Text}
    (hline : line ∈ Text.lines text) : IsProper line := by
  rcases h with hone | ⟨-, hlines⟩
  · rw [Text.lines_eq_of_no_break hone] at hline
    split at hline
    · exact nomatch hline
    · rwa [List.mem_singleton.1 hline]
  · exact (hlines line hline).1

/-- The files of joined texts are those that the texts announce. -/
theorem artifacts_join {texts : List Text} (hproper : ∀ text ∈ texts, IsProper text)
    (huntorn : ∀ text ∈ texts, IsUntorn package text) :
    artifacts (Text.intercalate "\n" texts) (.text package) =
      .ok ((texts.filterMap (announced? package)).flatten.map Path.ofText) := by
  have hlines : ∀ line ∈ Text.lines (Text.intercalate "\n" texts), IsProper line := by
    intro line hline
    by_cases hempty : line = []
    · subst hempty
      decide
    · have hsolid : line ∈ Text.solidLines (Text.intercalate "\n" texts) :=
        List.mem_filter.2 ⟨hline, decide_eq_true hempty⟩
      rw [Text.solidLines_intercalate, List.mem_flatMap] at hsolid
      obtain ⟨text, htext, hsolid⟩ := hsolid
      exact isProper_of_mem_lines (hproper text htext) (huntorn text htext)
        (List.mem_filter.1 hsolid).1
  rw [artifacts_eq hlines, filterMap_lines, Text.solidLines_intercalate, List.filterMap_flatMap,
    List.flatMap_congr fun text htext => filterMap_solidLines (huntorn text htext),
    ← List.filterMap_eq_flatMap_toList]

/-- **Every file is found.** The firmware files in a stream of texts are the file names of the
messages among them that are about a program of the package, in order. A text that is no such
message changes nothing, wherever it stands. -/
theorem artifacts_intercalate {texts : List Text} (hproper : ∀ text ∈ texts, IsProper text)
    (huntorn : ∀ text ∈ texts, IsUntorn package text) :
    artifacts (Text.intercalate "\n" texts) (.text package) =
        .ok ((texts.filterMap (announced? package)).flatten.map Path.ofText) ∧
      ∀ before text after, texts = before ++ text :: after → announced? package text = none →
        artifacts (Text.intercalate "\n" (before ++ after)) (.text package) =
          artifacts (Text.intercalate "\n" texts) (.text package) := by
  refine ⟨artifacts_join hproper huntorn, ?_⟩
  rintro before text after rfl hnone
  have hsub : (before ++ after).Sublist (before ++ text :: after) :=
    (List.Sublist.refl before).append (List.sublist_cons_self text after)
  rw [artifacts_join hproper huntorn, artifacts_join (fun t ht => hproper t (hsub.subset ht))
    (fun t ht => huntorn t (hsub.subset ht)), List.filterMap_append, List.filterMap_append,
    List.filterMap_cons_none hnone]

/-- Messages between notes, one of which breaks off at a form feed. -/
def noisy : List Text :=
  ["   Compiling core", "\x7b\"reason\":\"compiler-artifact\",\"package_id\":\"core\"," ++
      "\"target\":\x7b\"kind\":[\"lib\"]\x7d,\"filenames\":[\"core.a\"]\x7d",
    "note:\x0c [1, 2]", "", "\x7b\"reason\":\"compiler-artifact\",\"package_id\":\"blink\"," ++
      "\"target\":\x7b\"kind\":[\"lib\",\"bin\"]\x7d,\"filenames\":[\"a.elf\",\"b.elf\"]\x7d",
    "\x7b\"reason\":\"build-finished\",\"success\":true\x7d"]

theorem artifacts_intercalate_noisy :
    artifacts (Text.intercalate "\n" noisy) (.text "blink") =
        .ok [Path.ofText "a.elf", Path.ofText "b.elf"] ∧
      artifacts (Text.intercalate "\n" noisy.tail) (.text "blink") =
        artifacts (Text.intercalate "\n" noisy) (.text "blink") := by
  have hproper : ∀ text ∈ noisy, IsProper text := by decide +kernel
  have huntorn : ∀ text ∈ noisy, IsUntorn "blink" text := by decide +kernel
  have hfiles : (noisy.filterMap (announced? "blink")).flatten = ["a.elf", "b.elf"] := by
    decide +kernel
  have h := artifacts_intercalate hproper huntorn
  rw [hfiles] at h
  exact ⟨h.1, h.2 [] "   Compiling core" noisy.tail rfl (by decide +kernel)⟩

/-- A message with a file name that holds a line separator. -/
def torn : Text :=
  "\x7b\"reason\":\"compiler-artifact\",\"package_id\":\"blink\"," ++
    "\"target\":\x7b\"kind\":[\"bin\"]\x7d,\"filenames\":[\"a\u2028b\"]\x7d"

/-- Such a message is read as two lines, and its file is missing. -/
theorem artifacts_torn :
    IsProper torn ∧ .char '\n' ∉ torn ∧ .char '\r' ∉ torn ∧
      announced? "blink" torn = some (["a\u2028b"] : List Text) ∧
      artifacts (Text.intercalate "\n" [torn]) (.text "blink") = .ok [] := by
  refine ⟨by decide +kernel, by decide +kernel, by decide +kernel, by decide +kernel, ?_⟩
  exact eq_ok_of_toOption (by decide +kernel)

end Project
end FirmwareBuild
