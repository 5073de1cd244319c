import FirmwareBuild.Proofs.CommandLine
import FirmwareBuild.Proofs.Recipe.Run
import FirmwareBuild.Proofs.Text.Lines
import Mathlib.Data.List.Infix

/-! What is shown of the tool that a recipe runs.

The package tool takes every line of the output for a directive, so of what a tool has said
nothing may get there but as one. Of a tool that has succeeded the warnings are printed, each as a
directive of its own; what a tool that has failed said goes to the messages as a whole; and of a
tool that has not started there is nothing to show: `run_shows`. -/
namespace FirmwareBuild

namespace Text

theorem contains_eq_true {part s : Text} : contains part s = true ↔ part <:+: s := by
  induction s with
  | nil => simp [contains]
  | cons c rest ih =>
    rw [contains, Bool.or_eq_true, ih, List.isPrefixOf_iff_prefix, List.infix_cons_iff]

/-- Lines without line breaks, each with a feed behind it, are found again. -/
theorem lines_flatMap_feed {ls : List Text} (h : ∀ l ∈ ls, ∀ c ∈ l, isLineBreak c = false) :
    lines (ls.flatMap fun l => l ++ [.char '\n']) = ls := by
  induction ls with
  | nil => rfl
  | cons l ls ih =>
    obtain ⟨hl, hls⟩ := List.forall_mem_cons.1 h
    rw [List.flatMap_cons, List.append_assoc, List.singleton_append, lines_line_append hl, ih hls]

end Text

namespace Recipe

open Host (Ending Outcome)

/-- A warning as it is printed for the package tool. -/
def directive (line : Text) : Text := "cargo:warning=" ++ line

/-- What becomes of a tool, against the lines that are printed for it, the messages that are
passed on and the result. -/
structure Shows (o : Outcome) (printed : List Text) (relayed : Text)
    (result : Except Failure Ending) : Prop where
  /-- Of a success, the lines of the messages in which a warning stands, in order. -/
  success : ∀ e, o = .ends e → e.code = 0 →
    printed = ((Text.lines (Text.Utf8.decodeLossy e.messages)).filter fun line =>
      ("warning:" : Text) <:+: line).map directive ∧ relayed = [] ∧ result = .ok e
  /-- Of a failure, all messages; the error has the exit code unless it was a signal. -/
  failure : ∀ e, o = .ends e → e.code ≠ 0 →
    printed = [] ∧ relayed = Text.Utf8.decodeLossy e.messages ∧
      ∃ t : ToolError, result = .error (.tool t) ∧ (t.code? = none ↔ e.code < 0) ∧
        ∀ code ∈ t.code?, (code : Int) = e.code
  refusal : ∀ errno, o = .refused errno →
    printed = [] ∧ relayed = [] ∧ ∃ t : ToolError, result = .error (.tool t) ∧ t.code? = none
  interruption : o = .interrupted →
    printed = [] ∧ relayed = [] ∧ result = .error .interrupted

/-- What a run of a command leaves behind on a host: behind the command itself, lines. -/
structure Leaves (cmd printed : List Text) (relayed : Text) (h h' : Host) : Prop where
  launches : h'.launches = h.launches ++ [⟨cmd, none, none, true⟩]
  output : h'.output = h.output ++ (Host.formatCommand cmd [] ++ .char '\n' ::
    printed.flatMap fun line => line ++ [.char '\n'])
  messages : h'.messages = h.messages ++ relayed

/-- Lines of an output that are directives, each on one line. -/
structure AreDirectives (printed : List Text) : Prop where
  labelled : ∀ line ∈ printed, ("cargo:warning=" : Text) <+: line
  whole : Text.lines (printed.flatMap fun line => line ++ [.char '\n']) = printed

/-! ### One outcome -/

theorem warnings_eq (messages : Text) :
    warnings messages = (Text.lines messages).filter fun line => ("warning:" : Text) <:+: line := by
  refine List.filter_congr fun line _ => ?_
  rw [Bool.eq_iff_iff, decide_eq_true_iff]
  exact Text.contains_eq_true

/-- The error of a tool that ended has the exit code, if it has one. -/
theorem code?_toolError (code : Int) (program : Text) :
    ((Host.toolError code program).code? = none ↔ code < 0) ∧
      ∀ c ∈ (Host.toolError code program).code?, (c : Int) = code := by
  by_cases h : code < 0
  · simp [Host.toolError, Host.exitCode?, ToolError.code?, h]
  · have hnat : (code.toNat : Int) = code := Int.toNat_of_nonneg (by omega)
    simp [Host.toolError, Host.exitCode?, ToolError.code?, h, hnat]

theorem shows_outcome (o : Outcome) (program : Text) (args : List Text) :
    Shows o (warned o) o.relayed (o.success (program :: args)) where
  success := by
    rintro e rfl he
    refine ⟨?_, by simp [Outcome.relayed, he], by simp [Outcome.success, he]⟩
    rw [warned, if_pos he, warnings_eq]
    rfl
  failure := by
    rintro e rfl he
    refine ⟨by simp [warned, he], by simp [Outcome.relayed, he], Host.toolError e.code program, ?_,
      code?_toolError e.code program⟩
    rw [Outcome.success, if_neg he]
    rfl
  refusal := by
    rintro errno rfl
    exact ⟨rfl, rfl, Host.startError errno program, rfl, rfl⟩
  interruption := by
    rintro rfl
    exact ⟨rfl, rfl, rfl⟩

theorem areDirectives_warned (o : Outcome) : AreDirectives (warned o) := by
  have hline : ∀ line ∈ warned o,
      ("cargo:warning=" : Text) <+: line ∧ ∀ c ∈ line, Text.isLineBreak c = false := by
    intro line hm
    cases o with
    | ends e =>
      rw [warned] at hm
      split at hm
      · obtain ⟨l, hl, rfl⟩ := List.mem_map.1 hm
        refine ⟨List.prefix_append _ _, fun c hc => ?_⟩
        rcases List.mem_append.1 hc with hc | hc
        · have hlabel : ∀ c ∈ ("cargo:warning=" : Text), Text.isLineBreak c = false := by decide
          exact hlabel c hc
        · exact Text.not_isLineBreak_of_mem_lines _ l (List.mem_filter.1 hl).1 c hc
      · exact absurd hm List.not_mem_nil
    | refused => exact absurd hm List.not_mem_nil
    | interrupted => exact absurd hm List.not_mem_nil
  exact ⟨fun line hm => (hline line hm).1,
    Text.lines_flatMap_feed fun line hm => (hline line hm).2⟩

/-! ### Runs -/

/-- A command line that is not blank has a program. -/
theorem exists_split {line : Text} (h : ∃ c ∈ line, Text.isBlank c = false) :
    ∃ program args, CommandLine.split line = .ok (program, args) := by
  rw [CommandLine.split]
  cases hw : CommandLine.words line with
  | nil =>
    obtain ⟨c, hm, hc⟩ := h
    rw [CommandLine.words_eq_nil_iff.1 hw c hm] at hc
    exact nomatch hc
  | cons program args => exact ⟨_, _, rfl⟩

theorem leaves_ran (h : Host) (cmd : List Text) :
    Leaves cmd (warned (h.outcome 0)) (h.outcome 0).relayed h (ran h cmd) where
  launches := launches_ran h cmd
  output := by
    rw [output_ran, Host.printed, List.flatMap_cons, List.append_assoc]
    rfl
  messages := rfl

/-- **Nothing that a tool says gets into the output but as a directive.** A recipe whose command
is not blank starts one tool, on any host. The output gets the command, which does not depend on
the tool, and behind it one directive for each warning of a tool that succeeds; of a tool that
fails all messages are passed on instead, and its error has the exit code unless a signal killed
it; of one that does not start there is neither, and its error has no code. -/
theorem run_shows (r : Recipe) (p : Params) (hsolid : ∃ c ∈ r.expand p, Text.isBlank c = false) :
    ∃ program args, CommandLine.split (r.expand p) = .ok (program, args) ∧
      ∀ h : Host, ∃ printed relayed,
        Leaves (program.toText :: args) printed relayed h (h.run (r.run p)).2 ∧
        Shows (h.outcome 0) printed relayed (h.run (r.run p)).1 ∧ AreDirectives printed := by
  obtain ⟨program, args, hsplit⟩ := exists_split hsolid
  refine ⟨program, args, hsplit, fun h => ⟨warned (h.outcome 0), (h.outcome 0).relayed, ?_⟩⟩
  rw [run_run hsplit]
  exact ⟨leaves_ran h _, shows_outcome _ _ _, areDirectives_warned _⟩

/-- A host on which a tool succeeds whose messages hold a line separator, a return and an octet
that is no character. -/
def murmuring : Host :=
  { (default : Host) with
    outcomes := [.ends ⟨0, [], Text.Utf8.encode "cc\u2028warning: a\r" ++
      0xff :: Text.Utf8.encode "warning: b"⟩] }

theorem run_shows_murmuring :
    (∃ c ∈ (⟨"cc"⟩ : Recipe).expand {}, Text.isBlank c = false) ∧
      (murmuring.run ((⟨"cc"⟩ : Recipe).run {})).2.output =
        "cc\ncargo:warning=warning: a\ncargo:warning=\ufffdwarning: b\n" := by
  have hsolid : ∃ c ∈ (⟨"cc"⟩ : Recipe).expand {}, Text.isBlank c = false :=
    ⟨.char 'c', by decide +kernel, by decide⟩
  obtain ⟨program, args, hsplit, hruns⟩ := run_shows ⟨"cc"⟩ {} hsolid
  obtain ⟨printed, relayed, hleaves, hshows, -⟩ := hruns murmuring
  have hcommand : CommandLine.split ((⟨"cc"⟩ : Recipe).expand {}) = .ok (.ofText "cc", []) :=
    eq_ok_of_toOption (by decide +kernel)
  obtain ⟨rfl, rfl⟩ := Prod.mk.inj (Except.ok.inj (hsplit.symm.trans hcommand))
  obtain ⟨hprinted, -, -⟩ := hshows.success _ rfl rfl
  refine ⟨hsolid, ?_⟩
  rw [hleaves.output, hprinted]
  decide +kernel

end Recipe
end FirmwareBuild
