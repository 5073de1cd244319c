import FirmwareBuild.Proofs.SearchList
import FirmwareBuild.Proofs.Text.Lines

/-! Compiler reports.

A compiler that is asked for its directories talks about other things as well. A `Report` is
all that it writes: lines without the mark, a line that begins with it, the directories and
whatever follows them. Lines before the mark may be indented, and what follows may hold
another mark with further directories; neither is taken for a directory. `discover_report`
says that a probe reads exactly the directories of a report, in their order, however the
compiler ends, and none at all where there is no mark or no compiler. -/
namespace FirmwareBuild.SearchList

/-- Whether a text is a line, wherever its end may be. -/
def IsLine (s : String) : Prop := ∀ c ∈ Text.ofString s, Text.isLineBreak c = false

instance (s : String) : Decidable (IsLine s) :=
  inferInstanceAs (Decidable (∀ c ∈ Text.ofString s, Text.isLineBreak c = false))

/-- Whether a line is the one above the directories. -/
def IsMarked (line : Text) : Prop := mark <+: line

instance (line : Text) : Decidable (IsMarked line) := inferInstanceAs (Decidable (mark <+: line))

/-- What a compiler writes that tells its directories. -/
structure Report where
  before : List String
  label : String
  dirs : List String
  after : String
  newline : String
  isLine_before : ∀ line ∈ before, IsLine line
  not_isMarked : ∀ line ∈ before, ¬IsMarked (Text.ofString line)
  isLine_label : IsLine label
  isLine_dir : ∀ dir ∈ dirs, IsLine dir
  head?_after : after.toList.head? ≠ some ' '
  newline_eq : newline = "\n" ∨ newline = "\r\n"

/-- Lines with the same end each. -/
def joined (newline : String) (lines : List String) : String :=
  String.join (lines.map (· ++ newline))

namespace Report

/-- The line above the directories. -/
def heading (r : Report) : String := "#include <...>" ++ r.label

def text (r : Report) : String :=
  joined r.newline (r.before ++ r.heading :: r.dirs.map (" " ++ ·)) ++ r.after

end Report

theorem ofString_append (s t : String) :
    Text.ofString (s ++ t) = Text.ofString s ++ Text.ofString t := by
  simp [Text.ofString, Text.ofChars]

theorem IsLine.append {s t : String} (hs : IsLine s) (ht : IsLine t) : IsLine (s ++ t) := by
  intro c hc
  rw [ofString_append] at hc
  exact (List.mem_append.1 hc).elim (hs c) (ht c)

/-- Lines are read back from the text that they are joined to. -/
theorem lines_joined {newline : String} (hn : newline = "\n" ∨ newline = "\r\n")
    {lines : List String} (hl : ∀ line ∈ lines, IsLine line) (after : String) :
    Text.lines (Text.ofString (joined newline lines ++ after)) =
      lines.map Text.ofString ++ Text.lines (Text.ofString after) := by
  have hend : ∀ rest : Text,
      Text.lines (Text.ofString newline ++ rest) = [] :: Text.lines rest := by
    rcases hn with rfl | rfl <;> exact fun _ => rfl
  induction lines with
  | nil => rw [joined, List.map_nil, String.join_nil, String.empty_append]; rfl
  | cons line rest ih =>
    have hline : IsLine line := hl line (List.mem_cons_self ..)
    have ih := ih fun l hm => hl l (List.mem_cons_of_mem _ hm)
    have hsplit : joined newline (line :: rest) ++ after =
        line ++ (newline ++ (joined newline rest ++ after)) := by
      simp [joined, String.append_assoc]
    rw [hsplit, ofString_append, Text.lines_append_end hline, List.map_cons, List.cons_append]
    rw [ofString_append, hend, ih]

theorem isSome_after? {line : Text} : (Text.after? mark line).isSome ↔ IsMarked line := by
  rw [Text.after?, Option.isSome_iff_exists, IsMarked, List.IsPrefix]
  simp only [List.isPrefixOf?_eq_some_iff_append_eq]

/-- Lines without a mark are passed over. -/
theorem ofLines_append {before : List Text} (h : ∀ line ∈ before, ¬IsMarked line)
    (lines : List Text) : ofLines (before ++ lines) = ofLines lines := by
  induction before with
  | nil => rfl
  | cons line rest ih =>
    obtain ⟨hline, hrest⟩ := List.forall_mem_cons.1 h
    rw [List.cons_append, ofLines, if_neg (isSome_after?.not.2 hline), ih hrest]

theorem ofLines_eq_nil {lines : List Text} (h : ∀ line ∈ lines, ¬IsMarked line) :
    ofLines lines = [] := by
  have := ofLines_append h []
  rwa [List.append_nil] at this

/-- The directories end where a line is not indented. -/
theorem indented_append {after : List Text}
    (h : ∀ line ∈ after.head?, line.head? ≠ some (.char ' ')) (dirs : List Text) :
    indented (dirs.map (.char ' ' :: ·) ++ after) = dirs.map Path.ofText := by
  induction dirs with
  | nil =>
    rw [List.map_nil, List.nil_append, List.map_nil]
    cases after with
    | nil => rfl
    | cons line rest =>
      rw [indented.eq_def]
      dsimp only
      split
      · exact absurd rfl (h _ rfl)
      · rfl
  | cons dir rest ih => rw [List.map_cons, List.cons_append, indented, ih, List.map_cons]

theorem Report.ofMessages_encode (r : Report) :
    ofMessages (Text.Utf8.encode r.text) =
      r.dirs.map fun dir => Path.ofText (Text.ofString dir) := by
  have hdirs : ∀ line ∈ r.dirs.map (" " ++ ·), IsLine line := by
    intro line hm
    obtain ⟨dir, hdir, rfl⟩ := List.mem_map.1 hm
    exact IsLine.append (by decide) (r.isLine_dir dir hdir)
  have hheading : IsLine r.heading := IsLine.append (by decide) r.isLine_label
  have hlines : ∀ line ∈ r.before ++ r.heading :: r.dirs.map (" " ++ ·), IsLine line := by
    intro line hm
    rcases List.mem_append.1 hm with hm | hm
    · exact r.isLine_before line hm
    · exact List.forall_mem_cons.2 ⟨hheading, hdirs⟩ line hm
  have hbefore : ∀ line ∈ r.before.map Text.ofString, ¬IsMarked line := by
    intro line hm
    obtain ⟨s, hs, rfl⟩ := List.mem_map.1 hm
    exact r.not_isMarked s hs
  have hmarked : IsMarked (Text.ofString r.heading) := by
    rw [heading, ofString_append]
    exact List.prefix_append ..
  have hafter : ∀ line ∈ (Text.lines (Text.ofString r.after)).head?,
      line.head? ≠ some (.char ' ') := by
    intro line hm hspace
    cases hl : Text.lines (Text.ofString r.after) with
    | nil =>
      rw [hl] at hm
      cases hm
    | cons first rest =>
      rw [hl] at hm
      obtain rfl : first = line := Option.some.inj hm
      rcases Text.head?_of_lines_eq_cons hl with hnone | hsome
      · exact nomatch hnone.symm.trans hspace
      · rw [hspace, Text.ofString, Text.ofChars, List.head?_map, eq_comm,
          Option.map_eq_some_iff] at hsome
        obtain ⟨c, hc, he⟩ := hsome
        exact r.head?_after (by rw [hc, CodePoint.char.inj he])
  have hindent : (r.dirs.map (" " ++ ·)).map Text.ofString =
      (r.dirs.map Text.ofString).map (.char ' ' :: ·) := by
    simp [Text.ofString, Text.ofChars]
  rw [ofMessages, Text.Utf8.decodeLossy_encode, text, lines_joined r.newline_eq hlines,
    List.map_append, List.append_assoc, ofLines_append hbefore, List.map_cons, List.cons_append,
    ofLines, if_pos (isSome_after?.2 hmarked), hindent, indented_append hafter, List.map_map]
  rfl

/-- **A probe reads what the compiler tells.** Of a report it reads the directories, all of
them and in their order, whatever is written besides and however the compiler ends. Without
a mark on any line, or without a compiler that starts, there are none. -/
theorem discover_report (h : Host) (compiler language : Text) :
    (∀ (e : Host.Ending) (r : Report), h.outcome 0 = .ends e →
        e.messages = Text.Utf8.encode r.text →
      h.run (discover compiler language) =
        (.ok (r.dirs.map fun dir => Path.ofText (Text.ofString dir)),
          h.started ⟨probe compiler language, none, some [], true⟩)) ∧
    (∀ e : Host.Ending, h.outcome 0 = .ends e →
        (∀ line ∈ Text.lines (Text.Utf8.decodeLossy e.messages), ¬IsMarked line) →
      h.run (discover compiler language) =
        (.ok [], h.started ⟨probe compiler language, none, some [], true⟩)) ∧
    ∀ refusal : Host.Errno, h.outcome 0 = .refused refusal →
      h.run (discover compiler language) =
        (.ok [], h.started ⟨probe compiler language, none, some [], true⟩) := by
  refine ⟨fun e r ho hm => ?_, fun e ho hm => ?_, fun refusal ho => ?_⟩
  · have hread : directoriesOf (.ok e) = r.dirs.map fun dir => Path.ofText (Text.ofString dir) := by
      rw [directoriesOf, hm, r.ofMessages_encode]
    rw [run_discover, ho, ← hread]
    rfl
  · have hread : directoriesOf (.ok e) = [] := ofLines_eq_nil hm
    rw [run_discover, ho, ← hread]
    rfl
  · rw [run_discover, ho]
    rfl

/-- A report with an indented line above the mark and a second mark below the directories. -/
def noisy : Report where
  before := [" /not/searched", "#include \"...\" search starts here:"]
  label := " search starts here:"
  dirs := ["/usr//include/", " indented", ""]
  after := "End of search list.\n#include <...>\n /not/searched\n"
  newline := "\n"
  isLine_before := by decide
  not_isMarked := by decide
  isLine_label := by decide
  isLine_dir := by decide
  head?_after := by decide
  newline_eq := .inl rfl

/-- A host whose compiler fails and has written the noisy report before. -/
def grumbling : Host :=
  { (default : Host) with outcomes := [.ends ⟨1, [], Text.Utf8.encode noisy.text⟩] }

theorem discover_report_noisy :
    grumbling.outcome 0 = .ends ⟨1, [], Text.Utf8.encode noisy.text⟩ ∧
      grumbling.run (discover "cc" "c") =
        (.ok [Path.ofText "/usr/include", Path.ofText " indented", Path.ofText ""],
          grumbling.started ⟨probe "cc" "c", none, some [], true⟩) := by
  have hd : [Path.ofText "/usr/include", Path.ofText " indented", Path.ofText ""] =
      noisy.dirs.map fun dir => Path.ofText (Text.ofString dir) := by decide
  have ho : grumbling.outcome 0 = .ends ⟨1, [], Text.Utf8.encode noisy.text⟩ := rfl
  rw [hd]
  exact ⟨ho, (discover_report grumbling "cc" "c").1 _ noisy ho (by dsimp only)⟩

end FirmwareBuild.SearchList
