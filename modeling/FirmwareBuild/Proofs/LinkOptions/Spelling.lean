import FirmwareBuild.Proofs.LinkOptions

/-! The arguments of a link command, in pieces and in other spellings.

What an argument means depends on the arguments before it only through the flag that waits for
its value (`Progress.step_behind`). So where none waits, a list of arguments can be cut in two
(`ofArguments_append`), and a value may stand behind its flag or be the next argument
(`read_respelled`). -/
namespace FirmwareBuild.LinkOptions

/-- The options in the arguments of a command on a host. -/
def read (h : Host) (command : Text) (args : List Text) : Except Failure LinkOptions :=
  (ofArguments command args).onHost h

/-- The flag that still waits for its value behind some arguments. -/
def waiting (args : List Text) : Option Flag :=
  (Progress.run ⟨{ command := [] }, none⟩ args).pending

/-! ### Options behind options -/

/-- Options with others behind them. The last script counts. -/
def andThen (o more : LinkOptions) : LinkOptions where
  command := o.command
  script := more.script.or o.script
  specs := o.specs ++ more.specs
  searchPath := o.searchPath ++ more.searchPath
  libraries := o.libraries ++ more.libraries
  platformOptions := o.platformOptions ++ more.platformOptions

theorem andThen_nothing (o : LinkOptions) (command : Text) : o.andThen { command } = o := by
  simp [andThen]

theorem andThen_add (o more : LinkOptions) (f : Flag) (v : Text) :
    o.andThen (more.add f v) = (o.andThen more).add f v := by
  cases f <;> simp [andThen, add]

namespace Progress

/-- The same place with options before it. -/
def behind (o : LinkOptions) (p : Progress) : Progress := ⟨o.andThen p.options, p.pending⟩

/-- Options that have been read before change nothing in how an argument is read. -/
theorem step_behind (o : LinkOptions) (p : Progress) (arg : Text) :
    (p.behind o).step arg = (p.step arg).behind o := by
  obtain ⟨options, pending⟩ := p
  cases pending with
  | some f => simp only [behind, step, andThen_add]
  | none =>
    simp only [behind, step]
    cases classify arg with
    | flag f => rfl
    | value f v => simp only [andThen_add]
    | platform => simp [andThen]
    | other => rfl

theorem run_behind (o : LinkOptions) (p : Progress) (args : List Text) :
    (p.behind o).run args = (p.run args).behind o := by
  induction args generalizing p with
  | nil => rfl
  | cons arg rest ih =>
    show ((p.behind o).step arg).run rest = _
    rw [step_behind, ih]
    rfl

/-- A run from some options is one from none, put behind them. -/
theorem run_eq_behind (o : LinkOptions) (command : Text) (args : List Text) :
    run ⟨o, none⟩ args = (run ⟨{ command }, none⟩ args).behind o := by
  rw [← run_behind, behind, andThen_nothing]

theorem pending_run (o : LinkOptions) (args : List Text) :
    (run ⟨o, none⟩ args).pending = waiting args := by
  rw [run_eq_behind o [], behind, waiting]

end Progress

/-- Where no flag waits, the arguments that follow are read as if they came first. -/
theorem ofArguments_append {a : List Text} (ha : waiting a = none) (command : Text)
    (b : List Text) :
    ofArguments command (a ++ b) = (ofArguments command a).andThen (ofArguments command b) := by
  have hrun : Progress.run ⟨{ command }, none⟩ a = ⟨ofArguments command a, none⟩ :=
    congrArg (Progress.mk _) ((Progress.pending_run { command } a).trans ha)
  rw [ofArguments, Progress.run_append, hrun, Progress.run_eq_behind _ command]
  rfl

/-- Search directories are looked for one after the other. -/
theorem onHost_andThen (h : Host) (o more : LinkOptions) :
    (o.andThen more).onHost h = do
      let o ← o.onHost h
      let more ← more.onHost h
      return o.andThen more := by
  simp only [onHost, andThen, filterM_append]
  cases o.searchPath.filterM fun dir => h.isDirectory (Path.ofText dir) with
  | error e => rfl
  | ok found => cases more.searchPath.filterM fun dir => h.isDirectory (Path.ofText dir) <;> rfl

/-! ### Spellings -/

/-- An argument that is a flag with its value, and the two arguments that say the same. -/
inductive Respells : Text → Text → Text → Prop
  | attached {flag v : Text} (known : flag ∈ (["-T", "-L", "-l"] : List Text)) (solid : v ≠ []) :
      Respells (flag ++ v) flag v
  | assigned {flag : Text} (v : Text) (known : flag ∈ (["-specs", "--specs"] : List Text)) :
      Respells (flag ++ "=" ++ v) flag v

theorem Respells.classify {arg flag v : Text} (h : Respells arg flag v) :
    ∃ f, LinkOptions.classify arg = .value f v ∧ LinkOptions.classify flag = .flag f := by
  cases h with
  | attached hflag hv =>
    simp only [List.mem_cons, List.not_mem_nil, or_false] at hflag
    rcases hflag with rfl | rfl | rfl
    · exact ⟨.script, classify_label (f := .script) fun _ => hv, by decide⟩
    · exact ⟨.searchPath, classify_label (f := .searchPath) fun _ => hv, by decide⟩
    · exact ⟨.library, classify_label (f := .library) fun _ => hv, by decide⟩
  | assigned v hflag =>
    simp only [List.mem_cons, List.not_mem_nil, or_false] at hflag
    rcases hflag with rfl | rfl
    · exact ⟨.specs, rfl, by decide⟩
    · exact ⟨.specs, rfl, by decide⟩

/-- Where no flag waits, a flag with its value does what the two do one after the other. -/
theorem Progress.step_respelled {arg flag v : Text} (h : Respells arg flag v) {p : Progress}
    (hp : p.pending = none) : p.step arg = (p.step flag).step v := by
  obtain ⟨options, pending⟩ := p
  obtain rfl : pending = none := hp
  obtain ⟨f, harg, hflag⟩ := h.classify
  simp only [Progress.step, harg, hflag]

theorem ofArguments_respelled {arg flag v : Text} (h : Respells arg flag v) {a : List Text}
    (ha : waiting a = none) (command : Text) (b : List Text) :
    ofArguments command (a ++ arg :: b) = ofArguments command (a ++ flag :: v :: b) := by
  have hpending : (Progress.run ⟨{ command }, none⟩ a).pending = none :=
    (Progress.pending_run _ a).trans ha
  rw [ofArguments, ofArguments, Progress.run_append, Progress.run_append]
  show (Progress.run (Progress.step _ arg) b).options =
    (Progress.run (Progress.step (Progress.step _ flag) v) b).options
  rw [Progress.step_respelled h hpending]

/-- **How a value is spelled and where arguments are divided makes no difference.** A link command
is read as its program and its arguments. Behind arguments that leave no flag without its value,
an option may be spelled in one argument or in two; and the options of those arguments and of
others behind them are the options of both, one after the other: the lists behind one another,
and the script of the second part if it has one. -/
theorem read_respelled (h : Host) (command : Text) (a b : List Text) (ha : waiting a = none) :
    (∀ line program args, CommandLine.split line = .ok (program, args) →
        parse h line = read h program.toText args) ∧
      (∀ arg flag v, Respells arg flag v →
        read h command (a ++ arg :: b) = read h command (a ++ flag :: v :: b)) ∧
      read h command (a ++ b) = do
        let o ← read h command a
        let more ← read h command b
        return o.andThen more := by
  refine ⟨fun line program args hsplit => ?_, fun arg flag v hspelled => ?_, ?_⟩
  · rw [parse, hsplit]
    rfl
  · rw [read, read, ofArguments_respelled hspelled ha]
  · rw [read, ofArguments_append ha, onHost_andThen, read, read]

/-- Behind a script that looks like a library: a directory in one argument or in two, and a flag
whose value is missing. -/
theorem read_respelled_missing :
    waiting ["-T", "-lfoo"] = none ∧ Respells "-Ld" "-L" "d" ∧
      read oneDirectory "ld" ["-T", "-lfoo", "-L", "d", "-T"] =
        .ok { command := "ld", script := some "-lfoo", searchPath := ["d"] } ∧
      read oneDirectory "ld" ["-T", "-lfoo", "-T"] =
        .ok { command := "ld", script := some "-lfoo" } := by
  have hwaiting : waiting ["-T", "-lfoo"] = none := by decide
  have hflag : ("-L" : Text) ∈ (["-T", "-L", "-l"] : List Text) := by decide
  have hvalue : ("d" : Text) ≠ [] := by decide
  have hspelled : Respells "-Ld" "-L" "d" := .attached hflag hvalue
  obtain ⟨-, hsame, hdivided⟩ := read_respelled oneDirectory "ld" ["-T", "-lfoo"] ["-T"] hwaiting
  refine ⟨hwaiting, hspelled, (hsame _ _ _ hspelled).symm.trans ?_, hdivided.trans ?_⟩
  · exact eq_ok_of_toOption (by decide +kernel)
  · exact eq_ok_of_toOption (by decide +kernel)

end FirmwareBuild.LinkOptions
