import FirmwareBuild.BoardTool
import FirmwareBuild.Proofs.Config.Chain

/-! The command of the board tool.

Behind its program the command is made of flags with one value each, and the values of a flag come
in the order of the configuration. The tool takes a preference from the text before the first
equals sign of an entry, and the last entry counts. -/
namespace FirmwareBuild.BoardTool

/-! ### Flags -/

/-- Flags with their values. -/
def flagPairs : List Text → List (Text × Text)
  | flag :: value :: rest => (flag, value) :: flagPairs rest
  | _ => []

/-- The values of a flag. -/
def valuesIn (flag : Text) (pairs : List (Text × Text)) : List Text :=
  pairs.filterMap fun p => if p.1 = flag then some p.2 else none

/-- The values that a command gives to a flag, in order. -/
def valuesOf (flag : Text) (command : List Text) : List Text :=
  valuesIn flag (flagPairs command.tail)

/-- The directories that an installation brings along for a flag. -/
def ownPaths (flag : Text) (home : Option Path) : List Text := valuesOf flag (program home)

theorem flagPairs_flagged (flag : Text) (values rest : List Text) :
    flagPairs (flagged flag values ++ rest) =
      values.map (fun v => (flag, v)) ++ flagPairs rest := by
  induction values with
  | nil => rfl
  | cons v vs ih =>
    show (flag, v) :: flagPairs (flagged flag vs ++ rest) = _
    rw [ih]
    rfl

theorem valuesIn_append (flag : Text) (a b : List (Text × Text)) :
    valuesIn flag (a ++ b) = valuesIn flag a ++ valuesIn flag b := List.filterMap_append

theorem valuesIn_same (flag : Text) (values : List Text) :
    valuesIn flag (values.map fun v => (flag, v)) = values := by
  simp [valuesIn, List.filterMap_map]

theorem valuesIn_other {flag other : Text} (h : other ≠ flag) (values : List Text) :
    valuesIn flag (values.map fun v => (other, v)) = [] := by
  simp [valuesIn, List.filterMap_map, h]

/-- The values of a flag in a command that goes on with values of another flag. -/
theorem valuesIn_flagged_other {flag other : Text} (h : other ≠ flag) (values rest : List Text) :
    valuesIn flag (flagPairs (flagged other values ++ rest)) = valuesIn flag (flagPairs rest) := by
  rw [flagPairs_flagged, valuesIn_append, valuesIn_other h, List.nil_append]

theorem valuesIn_flagged_same (flag : Text) (values rest : List Text) :
    valuesIn flag (flagPairs (flagged flag values ++ rest)) =
      values ++ valuesIn flag (flagPairs rest) := by
  rw [flagPairs_flagged, valuesIn_append, valuesIn_same]

/-- The values of a flag begin with those of the installation. -/
theorem valuesOf_program_append (flag : Text) (home : Option Path) (rest : List Text) :
    valuesOf flag (program home ++ rest) =
      ownPaths flag home ++ valuesIn flag (flagPairs rest) := by
  rw [ownPaths, valuesOf, valuesOf, ← valuesIn_append]
  cases home <;> rfl

variable (t : BoardTool)

theorem command_eq : t.command = program t.home ++ (flagged "-hardware" (t.hardware.map Path.toText)
    ++ (flagged "-tools" (t.tools.map Path.toText) ++ (flagged "-built-in-libraries"
      (t.builtInLibraries.map Path.toText) ++ (flagged "-libraries" (t.libraries.map Path.toText) ++
        (flagged "-fqbn" [t.board.render] ++ (flagged "-warnings" ["all"] ++
          (flagged "-prefs" (allWarnings :: t.prefs) ++ []))))))) := by
  simp only [command, flaggedPaths, List.append_assoc, List.append_nil]

theorem valuesOf_hardware : valuesOf "-hardware" t.command =
    ownPaths "-hardware" t.home ++ t.hardware.map Path.toText := by
  simp (disch := decide) only [command_eq, valuesOf_program_append, valuesIn_flagged_same,
    valuesIn_flagged_other]
  exact congrArg _ (List.append_nil _)

theorem valuesOf_tools : valuesOf "-tools" t.command =
    ownPaths "-tools" t.home ++ t.tools.map Path.toText := by
  simp (disch := decide) only [command_eq, valuesOf_program_append, valuesIn_flagged_same,
    valuesIn_flagged_other]
  exact congrArg _ (List.append_nil _)

theorem valuesOf_libraries : valuesOf "-libraries" t.command = t.libraries.map Path.toText := by
  have hown : ownPaths "-libraries" t.home = [] := by cases t.home <;> rfl
  simp (disch := decide) only [command_eq, valuesOf_program_append, valuesIn_flagged_same,
    valuesIn_flagged_other, hown]
  exact List.append_nil _

theorem valuesOf_fqbn : valuesOf "-fqbn" t.command = [t.board.render] := by
  have hown : ownPaths "-fqbn" t.home = [] := by cases t.home <;> rfl
  simp (disch := decide) only [command_eq, valuesOf_program_append, valuesIn_flagged_same,
    valuesIn_flagged_other, hown]
  exact List.append_nil _

theorem valuesOf_prefs : valuesOf "-prefs" t.command = (allWarnings : Text) :: t.prefs := by
  have hown : ownPaths "-prefs" t.home = [] := by cases t.home <;> rfl
  simp (disch := decide) only [command_eq, valuesOf_program_append, valuesIn_flagged_same,
    valuesIn_flagged_other, hown]
  exact List.append_nil _

/-! ### Preferences -/

/-- The preferences that entries set, each from the text before its first equals sign. -/
def readPrefs (entries : List Text) : List (Text × Text) := entries.filterMap (Text.cut '=')

/-- The last value that is given for a key. -/
def lastValue? (key : Text) (pairs : List (Text × Text)) : Option Text :=
  (valuesIn key pairs).getLast?

/-- Whether behind the last value for a key another key is set that goes on with an equals sign
where the first one ends. -/
def IsShadowed (key : Text) (prefs : List (Text × Text)) : Prop :=
  ∃ before value after rest other, prefs = before ++ (key, value) :: after ∧
    key ∉ Entries.keys after ∧ (key ++ .char '=' :: rest, other) ∈ after

variable {key value : Text}

theorem lastValue?_append (a b : List (Text × Text)) :
    lastValue? key (a ++ b) = (lastValue? key b).or (lastValue? key a) := by
  rw [lastValue?, valuesIn_append, List.getLast?_append]
  rfl

theorem lastValue?_cons_same (rest : List (Text × Text)) :
    lastValue? key ((key, value) :: rest) = (lastValue? key rest).or (some value) := by
  rw [← List.singleton_append, lastValue?_append]
  congr 1
  simp [lastValue?, valuesIn]

theorem lastValue?_eq_none {pairs : List (Text × Text)} :
    lastValue? key pairs = none ↔ key ∉ Entries.keys pairs := by
  simp only [lastValue?, valuesIn, List.getLast?_eq_none_iff, List.filterMap_eq_nil_iff,
    Entries.keys, List.mem_map, not_exists, not_and]
  constructor
  · intro h p hp hk
    exact absurd ((if_pos hk).symm.trans (h p hp)) (Option.some_ne_none _)
  · intro h p hp
    rw [if_neg (h p hp)]

/-- The innermost value of several maps is the last one of their pairs. -/
theorem lastValue?_flatMap {α : Type} (f : α → List (Text × Text)) (xs : List α) :
    lastValue? key (xs.flatMap f) = (xs.filterMap fun x => lastValue? key (f x)).getLast? := by
  induction xs with
  | nil => rfl
  | cons x xs ih =>
    rw [List.flatMap_cons, lastValue?_append, ih, List.filterMap_cons]
    cases lastValue? key (f x) with
    | none => exact Option.or_none
    | some v =>
      rw [List.getLast?_cons]
      cases (xs.filterMap fun x => lastValue? key (f x)).getLast? <;> rfl

theorem exists_last {pairs : List (Text × Text)} (h : lastValue? key pairs = some value) :
    ∃ before after, pairs = before ++ (key, value) :: after ∧ key ∉ Entries.keys after := by
  induction pairs with
  | nil => exact nomatch h
  | cons p rest ih =>
    cases hrest : lastValue? key rest with
    | some v =>
      have hv : v = value := by
        rw [← List.singleton_append, lastValue?_append, hrest] at h
        exact Option.some.inj h
      obtain ⟨before, after, rfl, hafter⟩ := ih (hv ▸ hrest)
      exact ⟨p :: before, after, rfl, hafter⟩
    | none =>
      obtain ⟨k, v⟩ := p
      rw [← List.singleton_append, lastValue?_append, hrest, Option.none_or] at h
      obtain ⟨rfl, rfl⟩ : k = key ∧ v = value := by
        by_cases hk : k = key
        · exact ⟨hk, by simpa [lastValue?, valuesIn, hk] using h⟩
        · simp [lastValue?, valuesIn, hk] at h
      exact ⟨[], rest, rfl, lastValue?_eq_none.1 hrest⟩

/-- An entry is read for its own key, or for what comes before an equals sign in it. -/
theorem key_of_cut {entry : Text × Text} {rest : Text}
    (h : Text.cut '=' (entry.1 ++ "=" ++ entry.2) = some (key, rest)) :
    entry.1 = key ∨ ∃ more, entry.1 = key ++ .char '=' :: more := by
  obtain ⟨k, v⟩ := entry
  have hentry : k ++ "=" ++ v = k ++ .char '=' :: v := by
    rw [List.append_assoc]
    rfl
  simp only [hentry] at h ⊢
  cases hk : Text.cut '=' k with
  | none =>
    rw [Text.cut_append v (Text.cut_eq_none.1 hk), Option.some.injEq, Prod.mk.injEq] at h
    exact .inl h.1
  | some parts =>
    obtain ⟨a, b⟩ := parts
    obtain ⟨rfl, ha⟩ := Text.cut_eq_some hk
    rw [List.append_assoc, List.cons_append, Text.cut_append _ ha, Option.some.injEq,
      Prod.mk.injEq] at h
    exact .inr ⟨b, by rw [h.1]⟩

theorem lastValue?_readPrefs (hk : .char '=' ∉ key) {prefs : List (Text × Text)}
    (hv : lastValue? key prefs = some value) (hs : ¬IsShadowed key prefs) (first : Text) :
    lastValue? key (readPrefs (first :: prefs.map fun e => e.1 ++ "=" ++ e.2)) = some value := by
  obtain ⟨before, after, rfl, hafter⟩ := exists_last hv
  have hown : readPrefs [key ++ "=" ++ value] = [(key, value)] := by
    have hcut : Text.cut '=' (key ++ "=" ++ value) = some (key, value) := by
      rw [List.append_assoc]
      exact Text.cut_append value hk
    rw [readPrefs, List.filterMap_cons, hcut]
    rfl
  have hrest : lastValue? key (readPrefs (after.map fun e => e.1 ++ "=" ++ e.2)) = none := by
    rw [lastValue?_eq_none]
    intro hm
    obtain ⟨⟨k, rest⟩, hread, rfl⟩ := List.mem_map.1 hm
    obtain ⟨text, htext, hcut⟩ := List.mem_filterMap.1 hread
    obtain ⟨e, he, rfl⟩ := List.mem_map.1 htext
    rcases key_of_cut hcut with hsame | ⟨more, hmore⟩
    · exact hafter (List.mem_map.2 ⟨e, he, hsame⟩)
    · exact hs ⟨before, value, after, more, e.2, rfl, hafter, hmore ▸ he⟩
  have hsplit : readPrefs (first ::
      (before ++ (key, value) :: after).map fun e => e.1 ++ "=" ++ e.2) =
      readPrefs (first :: before.map fun e => e.1 ++ "=" ++ e.2) ++
        (readPrefs [key ++ "=" ++ value] ++ readPrefs (after.map fun e => e.1 ++ "=" ++ e.2)) := by
    simp only [readPrefs, ← List.filterMap_append, List.map_append, List.map_cons,
      List.cons_append, List.nil_append]
  rw [hsplit, hown, lastValue?_append, List.singleton_append, lastValue?_cons_same, hrest]
  rfl

/-! ### From the files to the command -/

open UserConfig (candidates IsUsable)

/-- **The chain of configuration files.** Where every file that exists can be loaded, the
configuration is made of exactly these, each once and in the order of the places where they are
first looked for: the board and the home of the last file that gives one, and all lists one after
the other. The command of the tool gives the directories in this order behind those of the
installation, and the last entry for a preference whose key has no equals sign has the innermost
value, unless another key behind it goes on from the same text with an equals sign. -/
theorem command_of_load {h : Host} {current home : Path}
    (hu : ∀ p ∈ candidates current home, IsUsable h p) :
    ∃ (files : List ConfigFile) (c : UserConfig), UserConfig.load h current home = .ok c ∧
      (∀ f ∈ files, ConfigFile.load h f.path = .ok f) ∧ c.files = files.map ConfigFile.path ∧
      (∀ p, p ∈ c.files ↔ p ∈ candidates current home ∧ h.isFile p = .ok true) ∧
      c.files.Nodup ∧
      c.files.Pairwise (fun p q =>
        (candidates current home).idxOf p < (candidates current home).idxOf q) ∧
      c.targetBoard = (files.filterMap ConfigFile.targetBoard).getLast? ∧
      c.home = (files.filterMap ConfigFile.home).getLast? ∧
      c.hardware = files.flatMap ConfigFile.hardware ∧
      c.tools = files.flatMap ConfigFile.tools ∧
      c.libraries = files.flatMap ConfigFile.libraries ∧
      c.preferences = files.flatMap ConfigFile.preferences ∧
      ∀ board given,
        let tool := ofConfig board c given
        valuesOf "-hardware" tool.command =
            ownPaths "-hardware" tool.home ++ c.hardware.map Path.toText ∧
          valuesOf "-tools" tool.command =
            ownPaths "-tools" tool.home ++ c.tools.map Path.toText ∧
          valuesOf "-libraries" tool.command = c.libraries.map Path.toText ∧
          valuesOf "-prefs" tool.command =
            (allWarnings : Text) :: c.preferences.map (fun e => e.1 ++ "=" ++ e.2) ∧
          ∀ key value,
            (files.filterMap fun f => lastValue? key f.preferences).getLast? = some value →
            lastValue? key c.preferences = some value ∧
              (.char '=' ∉ key → ¬IsShadowed key c.preferences →
                lastValue? key (readPrefs (valuesOf "-prefs" tool.command)) = some value) := by
  obtain ⟨files, hload, hfiles, hcovers⟩ := UserConfig.load_eq_ok hu
  have hthere : ∀ p ∈ candidates current home,
      UserConfig.isThere h p = true ↔ h.isFile p = .ok true := by
    intro p hp
    rw [UserConfig.isFile_eq_isThere (hu p hp), Except.ok.injEq]
  refine ⟨files, _, hload, hfiles, rfl, fun p => ?_, hcovers.nodup, hcovers.ordered,
    UserConfig.innermost_eq _ _, UserConfig.innermost_eq _ _, rfl, rfl, rfl, rfl,
    fun board given => ⟨valuesOf_hardware _, valuesOf_tools _, valuesOf_libraries _,
      valuesOf_prefs _, fun key value hv => ?_⟩⟩
  · show p ∈ files.map ConfigFile.path ↔ _
    rw [hcovers.mem]
    exact and_congr_right fun hp => hthere p hp
  · have hlast : lastValue? key (files.flatMap ConfigFile.preferences) = some value := by
      rw [lastValue?_flatMap, hv]
    refine ⟨hlast, fun hk hs => ?_⟩
    rw [valuesOf_prefs]
    exact lastValue?_readPrefs hk hlast hs _

/-- The lines that set a key, another one that goes on from it, and a third one. -/
def entries : List Char := "a='x'\n'a=b'='y'\nc='z'".toList

/-- A configuration file with these lines. -/
def shadowing : String := "[arduino-builder.preferences]\na='x'\n'a=b'='y'\nc='z'"

/-- Where this file is. -/
def place : Path := .ofText ".carguino/config"

def configured : Host :=
  { (default : Host) with
    tree := ⟨.directory [(".carguino", .directory [("config",
      .file (Text.Utf8.encode shadowing))])]⟩ }

/-- What this file says. -/
def said : ConfigFile where
  path := place
  targetBoard := none
  home := none
  hardware := []
  tools := []
  libraries := []
  preferences := [("a", "x"), ("a=b", "y"), ("c", "z")]

/-- The document behind its header, with what has been set so far. -/
def draft (ps : List (Text × Setting)) : Toml.Draft where
  table := [("arduino-builder", .table [("preferences", .table ps)])]
  opened := [["arduino-builder", "preferences"]]
  dotted := []
  closed := []

/-- A line that sets a key to a text, and then the lines behind it. -/
theorem statements_draft {ps : List (Text × Setting)} {key t : Text} {c : Char} {cs : List Char}
    (value rest after : List Char) (hblank : Toml.isBlank c = false)
    (hc : c ≠ '[' ∧ c ≠ '\n' ∧ c ≠ '#')
    (hk : Toml.keyAndSign? (c :: cs) = some ([key], '\'' :: value))
    (ht : Toml.text? ('\'' :: value) = some (t, rest)) (he : Toml.lineEnd? rest = some after)
    (hshorter : rest.length < ('\'' :: value).length ∧ after.length < (c :: cs).length)
    (hg : (draft ps).give ["arduino-builder", "preferences"] [key] (.text t) =
      some (draft (ps ++ [(key, .text t)]))) :
    Toml.statements (draft ps) ["arduino-builder", "preferences"] (c :: cs) =
      Toml.statements (draft (ps ++ [(key, .text t)])) ["arduino-builder", "preferences"] after :=
  Toml.statements_cons hblank hc.2
    (Toml.statement_give hc.1 hk (Toml.value_text ht hshorter.1) hg) he hshorter.2

theorem parse_shadowing : Toml.parse shadowing = .ok [("arduino-builder", .table [("preferences",
    .table [("a", .text "x"), ("a=b", .text "y"), ("c", .text "z")])])] := by
  have hchars : Toml.joinLineEnds shadowing.toList =
      '[' :: ("arduino-builder.preferences]\n".toList ++ entries) := by decide +kernel
  have hkey : Toml.key? (Toml.skipBlanks ("arduino-builder.preferences]\n".toList ++ entries)) =
      some ((["arduino-builder", "preferences"] : List Text), ']' :: '\n' :: entries) := by
    decide +kernel
  have hheader : Toml.statement .empty []
      ('[' :: ("arduino-builder.preferences]\n".toList ++ entries)) =
        .ok (draft [], ["arduino-builder", "preferences"], '\n' :: entries) :=
    Toml.statement_header (by decide +kernel) hkey rfl
  have hfirst : Toml.statements (draft []) ["arduino-builder", "preferences"] entries =
      Toml.statements (draft [("a", .text "x")]) ["arduino-builder", "preferences"]
        ('\'' :: "a=b'='y'\nc='z'".toList) := by
    have hentries : entries = 'a' :: "='x'\n'a=b'='y'\nc='z'".toList := by decide +kernel
    rw [hentries]
    exact statements_draft "x'\n'a=b'='y'\nc='z'".toList "\n'a=b'='y'\nc='z'".toList _ rfl
      (by decide) (by decide +kernel) (by decide +kernel) (by decide +kernel) (by decide +kernel)
      rfl
  have hsecond : Toml.statements (draft [("a", .text "x")]) ["arduino-builder", "preferences"]
      ('\'' :: "a=b'='y'\nc='z'".toList) =
        Toml.statements (draft [("a", .text "x"), ("a=b", .text "y")])
          ["arduino-builder", "preferences"] ('c' :: "='z'".toList) :=
    statements_draft "y'\nc='z'".toList "\nc='z'".toList _ rfl (by decide) (by decide +kernel)
      (by decide +kernel) (by decide +kernel) (by decide +kernel) rfl
  have hthird : Toml.statements (draft [("a", .text "x"), ("a=b", .text "y")])
      ["arduino-builder", "preferences"] ('c' :: "='z'".toList) =
        Toml.statements (draft [("a", .text "x"), ("a=b", .text "y"), ("c", .text "z")])
          ["arduino-builder", "preferences"] [] :=
    statements_draft "z'".toList [] _ rfl (by decide) (by decide +kernel)
      (by decide +kernel) rfl (by decide +kernel) rfl
  rw [Toml.parse, hchars, Toml.statements_cons rfl (by decide) hheader rfl (by decide +kernel),
    hfirst, hsecond, hthird, Toml.statements]
  rfl

theorem load_configured : ConfigFile.load configured place = .ok said := by
  have hcontent : configured.content place = .ok (Text.Utf8.encode shadowing) :=
    eq_ok_of_toOption (by decide +kernel)
  rw [ConfigFile.load, hcontent]
  simp only [ConfigFile.ofOctets, Text.Utf8.decode?_encode, parse_shadowing]
  exact congrArg _ (eq_ok_of_toOption (by decide +kernel))

theorem isUsable_configured :
    ∀ p ∈ candidates (.ofText ".") (.ofText "home"), IsUsable configured p := by
  have hall : candidates (.ofText ".") (.ofText "home") =
      [UserConfig.fileIn (.ofText "home"), place] := by decide +kernel
  rw [hall]
  intro p hp
  rcases List.mem_cons.1 hp with rfl | hp
  · exact .inl (eq_ok_of_toOption (by decide +kernel))
  · obtain rfl := List.mem_singleton.1 hp
    exact .inr ⟨eq_ok_of_toOption (by decide +kernel), said, load_configured⟩

theorem loadAll_configured :
    UserConfig.load configured (.ofText ".") (.ofText "home") = .ok (.resolve [said]) := by
  have hpaths : UserConfig.paths configured (.ofText ".") (.ofText "home") = .ok [place] :=
    eq_ok_of_toOption (by decide +kernel)
  rw [UserConfig.load, hpaths]
  show ([place].mapM (ConfigFile.load configured) >>= _) = _
  rw [List.mapM_cons, load_configured]
  rfl

/-- The third key is not shadowed. -/
theorem command_of_load_configured :
    ∃ c, UserConfig.load configured (.ofText ".") (.ofText "home") = .ok c ∧ place ∈ c.files ∧
      ∀ board, lastValue? "c" (readPrefs (valuesOf "-prefs" (ofConfig board c none).command)) =
        some "z" := by
  obtain ⟨files, c, hload, -, -, hmem, -, -, -, -, -, -, -, hprefs, hcommand⟩ :=
    command_of_load isUsable_configured
  obtain rfl : .resolve [said] = c := Except.ok.inj (loadAll_configured.symm.trans hload)
  refine ⟨_, hload, ?_, fun board => ?_⟩
  · exact (hmem place).2 ⟨by decide +kernel, eq_ok_of_toOption (by decide +kernel)⟩
  · obtain ⟨-, -, -, -, hlast⟩ := hcommand board none
    have hinner : (files.filterMap fun f => lastValue? "c" f.preferences).getLast? = some "z" := by
      rw [← lastValue?_flatMap, ← hprefs]
      decide
    refine (hlast _ _ hinner).2 (by decide) ?_
    rintro ⟨before, value, after, rest, other, heq, -, hm⟩
    have hm : ("c" ++ .char '=' :: rest, other) ∈ said.preferences := by
      rw [show said.preferences = before ++ ((("c" : Text), value) :: after) from heq]
      exact List.mem_append_right _ (List.mem_cons_of_mem _ hm)
    simp [said, Text.ofString, Text.ofChars] at hm

/-- The last entry for a key can be that of another key. -/
theorem last_entry_configured :
    ¬∀ (h : Host) current home (files : List ConfigFile) c,
      (∀ p ∈ candidates current home, IsUsable h p) →
      UserConfig.load h current home = .ok c → c = .resolve files →
      (∀ f ∈ files, ConfigFile.load h f.path = .ok f) →
      ∀ board given key value, .char '=' ∉ key →
        (files.filterMap fun f => lastValue? key f.preferences).getLast? = some value →
        lastValue? key (readPrefs (valuesOf "-prefs" (ofConfig board c given).command)) =
          some value := by
  intro hall
  have hfiles : ∀ f ∈ [said], ConfigFile.load configured f.path = .ok f := by
    intro f hf
    obtain rfl := List.mem_singleton.1 hf
    exact load_configured
  have hlast := hall configured _ _ [said] _ isUsable_configured loadAll_configured rfl hfiles
    ⟨"v", "avr", "b", []⟩ none "a" "x" (by decide) (by decide)
  exact absurd hlast (by decide)

end FirmwareBuild.BoardTool
