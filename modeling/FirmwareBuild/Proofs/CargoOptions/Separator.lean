import FirmwareBuild.Proofs.CargoOptions.Reading

/-! A separator among the arguments.

The package tool hands what stands behind `--` on to another program. A scan knows of no
separator: it passes `--` on like any other word that is no option, and goes on reading as
if nothing had been there. So a target behind a separator is dropped with a warning too.
`parse_separator` says what the separator changes and what it does not, and under which
conditions the words behind it arrive as they were given. -/
namespace FirmwareBuild.CargoOptions

def separator : Text := "--"

/-- The words that choose how much is said. -/
def verbosityWords : List Text := ["--verbose", "-v", "-vv", "--quiet", "-q"]

/-- A word that is none of the options that a scan knows. -/
def IsOrdinary (word : Text) : Prop :=
  (∀ option ∈ separated, spells option word = false) ∧ word ∉ verbosityWords

instance (word : Text) : Decidable (IsOrdinary word) :=
  inferInstanceAs (Decidable ((∀ option ∈ separated, _) ∧ word ∉ verbosityWords))

/-- The options with more arguments in front of those that are passed on. -/
def behind (words : List Text) (o : CargoOptions) : CargoOptions :=
  { o with cargoArgs := words ++ o.cargoArgs }

def Progress.behind (words : List Text) (p : Progress) : Progress :=
  { p with options := p.options.behind words }

/-- What comes of a scan, with more arguments in front of those that are passed on. -/
def outcomeBehind (words : List Text) (r : Except Failure CargoOptions × Progress) :
    Except Failure CargoOptions × Progress :=
  (r.1.map (·.behind words), r.2.behind words)

/-- The progress when some words have been passed on and nothing else has happened. -/
def Progress.passing (p : Progress) (words : List Text) : Progress :=
  { p with options := { p.options with cargoArgs := p.options.cargoArgs ++ words } }

variable {p p' q : Progress} {pending next : Option Flag} {arg : Text} {args : List Text}
  {o : CargoOptions}

theorem Progress.passing_nil (p : Progress) : p.passing [] = p := by
  rw [passing, List.append_nil]

theorem Progress.passing_forward (p : Progress) (arg : Text) (words : List Text) :
    (p.forward arg).passing words = p.passing (arg :: words) := by
  simp only [passing, forward, CargoOptions.forward, List.append_assoc, List.singleton_append]

/-! ### What has been passed on before -/

theorem Progress.forward_behind (words : List Text) (p : Progress) (arg : Text) :
    (p.behind words).forward arg = (p.forward arg).behind words := by
  simp only [forward, behind, CargoOptions.forward, CargoOptions.behind, List.append_assoc]

theorem Progress.take_behind (words : List Text) (p : Progress) (f : Flag) (v : Text) :
    (p.behind words).take f v = (p.take f v).map (·.behind words) := by
  cases f with
  | target => rfl
  | board => rw [take, take]; cases Board.parse v <;> rfl
  | messageFormat => rfl
  | color =>
    show (((p.shell.withColor v).mapError Failure.option).map _ : Except Failure Progress) =
      (((p.shell.withColor v).mapError Failure.option).map _).map _
    cases p.shell.withColor v <;> rfl

theorem atFlag_behind (words : List Text) (p : Progress) (f : Flag) (arg : Text) :
    atFlag (p.behind words) f arg = (atFlag p f arg).behind words := by
  cases f with
  | color => exact p.forward_behind words arg
  | _ => rfl

/-- What a step comes to at the value of an option. -/
def settled (p : Progress) (f : Flag) (v arg : Text) : Except Failure (Option Flag) × Progress :=
  match p.take f v with
  | .ok q => (.ok none, if f = .color then q.forward arg else q)
  | .error e => (.error e, p)

theorem settled_behind (words : List Text) (p : Progress) (f : Flag) (v arg : Text) :
    settled (p.behind words) f v arg =
      ((settled p f v arg).1, (settled p f v arg).2.behind words) := by
  rw [settled, settled, Progress.take_behind]
  cases p.take f v with
  | error e => rfl
  | ok q =>
    by_cases hf : f = .color
    · simp only [Except.map, if_pos hf, Progress.forward_behind]
    · simp only [Except.map, if_neg hf]

/-- No step looks at what has been passed on. -/
theorem step_behind (words : List Text) (p : Progress) (pending : Option Flag) (arg : Text) :
    step (p.behind words) pending arg =
      ((step p pending arg).1, (step p pending arg).2.behind words) := by
  cases pending with
  | some f => exact settled_behind words p f arg arg
  | none =>
    simp only [step]
    split
    · rw [atFlag_behind]
    · rfl
    · rfl
    · exact settled_behind words p _ _ arg
    · next v _ => exact congrArg _ ((p.withVerbosity v).forward_behind words arg)
    · exact congrArg _ (p.forward_behind words arg)

theorem scan_behind (words : List Text) (p : Progress) (pending : Option Flag)
    (args : List Text) :
    scan (p.behind words) pending args = outcomeBehind words (scan p pending args) := by
  induction args generalizing p pending with
  | nil => rcases pending with _ | (_ | _ | _ | _) <;> rfl
  | cons arg rest ih =>
    rw [scan, scan, step_behind]
    rcases step p pending arg with ⟨e | next, q⟩
    · rfl
    · exact ih q next

/-- The progress as if nothing had been passed on. -/
def Progress.cleared (p : Progress) : Progress :=
  { p with options := { p.options with cargoArgs := [] } }

theorem Progress.behind_cleared (p : Progress) : p.cleared.behind p.options.cargoArgs = p := by
  show ({ p with options := { p.options with cargoArgs := p.options.cargoArgs ++ [] } } :
    Progress) = p
  rw [List.append_nil]

theorem scan_eq_behind (p : Progress) (args : List Text) :
    scan p none args = outcomeBehind p.options.cargoArgs (scan p.cleared none args) := by
  rw [← scan_behind, Progress.behind_cleared]

/-! ### Where a word stands -/

theorem getLast?_rolesFrom (pending : Option Flag) (args : List Text) (word : Text) :
    (rolesFrom (pending.map Flag.text) (args ++ [word])).getLast? =
      some (word, .behind (args.foldl waitingAfter pending)) := by
  induction args generalizing pending with
  | nil =>
    rw [List.nil_append, rolesFrom_cons]
    cases waitingAfter pending word <;> rfl
  | cons arg rest ih =>
    rw [List.cons_append, rolesFrom_cons, List.getLast?_cons, ih]
    rfl

/-- Behind arguments that leave no option waiting a scan goes on from a progress, unless it
has failed before. -/
theorem scan_append (h : args.foldl waitingAfter pending = none) (p : Progress) :
    (∃ e p', ∀ more, scan p pending (args ++ more) = (.error e, p')) ∨
      ∃ p', ∀ more, scan p pending (args ++ more) = scan p' none more := by
  induction args generalizing p pending with
  | nil =>
    obtain rfl : pending = none := h
    exact .inr ⟨p, fun _ => rfl⟩
  | cons arg rest ih =>
    cases hs : step p pending arg with
    | mk result q =>
      cases result with
      | error e => exact .inl ⟨e, q, fun more => by rw [List.cons_append, scan, hs]⟩
      | ok next =>
        have hrest : rest.foldl waitingAfter next = none := by rwa [(step_treats hs).1]
        simp only [List.cons_append, scan, hs]
        exact ih hrest q

/-! ### Words that arrive as they are -/

theorem kept_eq_self_iff {waiting : Option Text} :
    kept waiting args = args ↔ ∀ word ∈ rolesFrom waiting args, ¬IsLeftOut word := by
  constructor
  · intro h word hword
    have hlength : ((rolesFrom waiting args).filter (¬IsLeftOut ·)).length =
        (rolesFrom waiting args).length := by
      have := congrArg List.length (h.trans (map_fst_rolesFrom waiting args).symm)
      simpa only [kept, List.length_map] using this
    simpa using List.length_filter_eq_length_iff.1 hlength word hword
  · intro h
    rw [kept, List.filter_eq_self.2 fun word hword => by simpa using h word hword,
      map_fst_rolesFrom]

theorem settled_observes {v : Text} (h : settled p .color v arg = (.ok next, p'))
    (hq : q.shell = p.shell) :
    settled q .color v arg = (.ok next, ({ q with shell := p'.shell } : Progress).forward arg) := by
  have htake : ∀ p : Progress, p.take .color v =
      ((p.shell.withColor v).mapError Failure.option).map fun shell => { p with shell } :=
    fun _ => rfl
  rw [settled, htake] at h ⊢
  rw [hq]
  cases hcolor : p.shell.withColor v with
  | error e =>
    rw [hcolor] at h
    exact nomatch (Prod.mk.inj h).1
  | ok shell =>
    rw [hcolor] at h
    obtain ⟨hnext, rfl⟩ := Prod.mk.inj h
    rw [← hnext]
    rfl

/-- A word that is not left out does the same to every progress with the same shell: it is
passed on, and what it says is said to the shell. -/
theorem step_observes (h : step p pending arg = (.ok next, p'))
    (hout : ¬IsLeftOut (arg, .behind pending)) (hq : q.shell = p.shell) :
    step q pending arg = (.ok next, ({ q with shell := p'.shell } : Progress).forward arg) := by
  cases pending with
  | some f =>
    obtain rfl : f = .color := by
      by_contra hf
      exact hout (mem_withheld_iff.2 hf)
    exact settled_observes h hq
  | none =>
    have hw : (classify arg).isWithheld = false :=
      Bool.eq_false_iff.2 (isLeftOut_option_iff.not.1 hout)
    simp only [step] at h ⊢
    cases hc : classify arg with
    | flag f =>
      rw [hc] at h hw
      obtain rfl : f = .color := by simpa [Word.isWithheld] using hw
      obtain ⟨hnext, rfl⟩ := Prod.mk.inj h
      rw [← hnext]
      show _ = (_, ({ q with shell := p.shell } : Progress).forward arg)
      rw [← hq]
      rfl
    | value f v =>
      rw [hc] at h hw
      obtain rfl : f = .color := by simpa [Word.isWithheld] using hw
      exact settled_observes h hq
    | verbosity v =>
      rw [hc] at h
      obtain ⟨hnext, rfl⟩ := Prod.mk.inj h
      rw [← hnext]
      show _ = (_, ({ q with shell := { p.shell with verbosity := v } } : Progress).forward arg)
      rw [← hq]
      rfl
    | other =>
      rw [hc] at h
      obtain ⟨hnext, rfl⟩ := Prod.mk.inj h
      rw [← hnext]
      show _ = (_, ({ q with shell := p.shell } : Progress).forward arg)
      rw [← hq]

theorem scan_observes (h : scan p pending args = (.ok o, p'))
    (hall : ∀ word ∈ rolesFrom (pending.map Flag.text) args, ¬IsLeftOut word)
    (hq : q.shell = p.shell) :
    scan q pending args =
      (.ok (({ q with shell := p'.shell } : Progress).passing args).options,
        ({ q with shell := p'.shell } : Progress).passing args) := by
  induction args generalizing p q pending with
  | nil =>
    obtain ⟨hend, rfl⟩ := Prod.mk.inj h
    rw [scan, ← hq, Progress.passing_nil]
    rcases pending with _ | (_ | _ | _ | _)
    case some.board => cases hend
    all_goals rfl
  | cons arg rest ih =>
    rw [rolesFrom_cons, List.forall_mem_cons] at hall
    cases hs : step p pending arg with
    | mk result p₁ =>
      rw [scan, hs] at h
      cases result with
      | error e => cases h
      | ok next =>
        have hrest := hall.2
        rw [← (step_treats hs).1] at hrest
        rw [scan, step_observes hs hall.1 hq]
        have := ih (q := ({ q with shell := p₁.shell } : Progress).forward arg) h hrest rfl
        rw [← Progress.passing_forward]
        exact this

theorem mem_verbosityWords_of_classify {v : Verbosity} (h : classify arg = .verbosity v) :
    arg ∈ verbosityWords := by
  unfold classify at h
  repeat' split at h
  all_goals cases h
  · next hverbose => rcases hverbose with rfl | rfl | rfl <;> decide
  · next hquiet => rcases hquiet with rfl | rfl <;> decide

theorem classify_eq_other {word : Text} (h : IsOrdinary word) : classify word = .other := by
  have hmem : ∀ f : Flag, f.text ∈ separated := by
    intro f
    cases f <;> decide
  cases hc : classify word with
  | flag f =>
    have := h.1 _ (hmem f)
    rw [spells, eq_text_of_classify hc, beq_self_eq_true, Bool.true_or] at this
    cases this
  | value f v =>
    have := h.1 _ (hmem f)
    rw [spells, after?_of_classify hc, Option.isSome_some, Bool.or_true] at this
    cases this
  | verbosity v => exact absurd (mem_verbosityWords_of_classify hc) h.2
  | other => rfl

theorem scan_ordinary (h : ∀ word ∈ args, IsOrdinary word) (p : Progress) :
    scan p none args = (.ok (p.passing args).options, p.passing args) := by
  induction args generalizing p with
  | nil => rw [Progress.passing_nil]; rfl
  | cons arg rest ih =>
    obtain ⟨harg, hrest⟩ := List.forall_mem_cons.1 h
    have hs : step p none arg = (.ok none, p.forward arg) := by
      simp only [step, classify_eq_other harg]
    rw [scan, hs, ← Progress.passing_forward]
    exact ih hrest _

/-- Whether the words behind a word arrive as they are. -/
theorem scan_forward_eq_passing_iff {word : Text} :
    scan (p.forward word) none args =
        (.ok (p.passing (word :: args)).options, p.passing (word :: args)) ↔
      (∀ w ∈ roles args, ¬IsLeftOut w) ∧
        ∃ o' p', parse args p.shell = (.ok o', p') ∧ p'.shell = p.shell := by
  constructor
  · intro h
    have hkept : kept none args = args := by
      have hargs := scan_cargoArgs h
      simp only [Progress.passing, Progress.forward, CargoOptions.forward, List.append_assoc,
        List.singleton_append] at hargs
      exact (List.cons.inj (List.append_cancel_left hargs)).2.symm
    have hall := kept_eq_self_iff.1 hkept
    exact ⟨hall, _, _, scan_observes h hall rfl, rfl⟩
  · rintro ⟨hall, o', p', hread, hshell⟩
    have hscan := scan_observes (q := p.forward word) hread hall rfl
    rw [hshell] at hscan
    rw [← Progress.passing_forward]
    exact hscan

/-! ### The separator -/

/-- **A separator is a word like any other.** Let `--` stand at the position of an option
behind some arguments. If these cannot be read, then nothing behind the separator is looked
at. Otherwise what stands behind it is read as if there were no separator, and the only
difference is that it is passed on too. So the words behind it arrive as they are, and
nothing else comes of them, exactly if none of them belongs to an option that a build sets
by itself and reading them leaves the shell as it is. Words that are no options are such. -/
theorem parse_separator {a : List Text} (b : List Text) (shell : Shell)
    (hposition : (roles (a ++ [separator])).getLast? = some (separator, .option)) :
    (∀ e p, parse a shell = (.error e, p) →
      parse (a ++ separator :: b) shell = (.error e, p)) ∧
    ∀ o p, parse a shell = (.ok o, p) →
      (∃ r, parse (a ++ b) shell = outcomeBehind o.cargoArgs r ∧
        parse (a ++ separator :: b) shell = outcomeBehind (o.cargoArgs ++ [separator]) r ∧
        ∀ o', r.1 = .ok o' → o'.cargoArgs = kept none b) ∧
      (parse (a ++ separator :: b) shell =
          (.ok (p.passing (separator :: b)).options, p.passing (separator :: b)) ↔
        (∀ word ∈ roles b, ¬IsLeftOut word) ∧
          ∃ o' p', parse b p.shell = (.ok o', p') ∧ p'.shell = p.shell) ∧
      ((∀ word ∈ b, IsOrdinary word) →
        parse (a ++ separator :: b) shell =
          (.ok (p.passing (separator :: b)).options, p.passing (separator :: b))) := by
  have hnone : a.foldl waitingAfter none = none := by
    have hlast := getLast?_rolesFrom none a separator
    rw [show rolesFrom (Option.map Flag.text none) _ = roles _ from rfl, hposition] at hlast
    cases hf : a.foldl waitingAfter none with
    | none => rfl
    | some f =>
      rw [hf] at hlast
      exact nomatch (Prod.mk.inj (Option.some.inj hlast)).2
  rcases scan_append hnone { shell } with ⟨e, q, hfail⟩ | ⟨p, hscan⟩
  · have ha : parse a shell = (.error e, q) := by
      rw [← List.append_nil a]
      exact hfail []
    refine ⟨fun e' p' h => (hfail _).trans (ha.symm.trans h), fun o p h => ?_⟩
    exact nomatch (Prod.mk.inj (ha.symm.trans h)).1
  · have ha : parse a shell = (.ok p.options, p) := by
      rw [← List.append_nil a]
      exact hscan []
    have hb : parse (a ++ separator :: b) shell = scan (p.forward separator) none b := hscan _
    refine ⟨fun e p' h => (nomatch (Prod.mk.inj (ha.symm.trans h)).1), fun o p' h => ?_⟩
    obtain ⟨ho, rfl⟩ := Prod.mk.inj (ha.symm.trans h)
    obtain rfl := Except.ok.inj ho
    rw [hb]
    refine ⟨⟨scan p.cleared none b, ?_, ?_, fun o' ho' => ?_⟩, ?_, fun hall => ?_⟩
    · exact (hscan b).trans (scan_eq_behind p b)
    · exact scan_eq_behind (p.forward separator) b
    · exact scan_cargoArgs (Prod.ext ho' rfl)
    · exact scan_forward_eq_passing_iff
    · rw [scan_ordinary hall, Progress.passing_forward]

/-- A request to say more, and the same again for another program. -/
def request : List Text := ["-v"]

def repeated : List Text := ["-v", "x"]

/-- The progress behind the request. -/
def loud : Progress := { options := { cargoArgs := request }, shell := { verbosity := .verbose } }

theorem parse_separator_loud :
    (roles (request ++ [separator])).getLast? = some (separator, .option) ∧
      parse (request ++ separator :: repeated) {} =
        (.ok { cargoArgs := ["-v", "--", "-v", "x"] }, loud.passing ["--", "-v", "x"]) := by
  have hposition : (roles (request ++ [separator])).getLast? = some (separator, .option) := by
    decide +kernel
  have ha : parse request {} = (.ok loud.options, loud) :=
    Prod.ext (eq_ok_of_toOption (by decide +kernel)) (by decide +kernel)
  have hb : parse repeated loud.shell = (.ok { cargoArgs := repeated },
      { options := { cargoArgs := repeated }, shell := loud.shell }) :=
    Prod.ext (eq_ok_of_toOption (by decide +kernel)) (by decide +kernel)
  have hall : ∀ word ∈ roles repeated, ¬IsLeftOut word := by decide +kernel
  have harrives := ((parse_separator repeated {} hposition).2 _ loud ha).2.1
  exact ⟨hposition, harrives.2 ⟨hall, _, _, hb, rfl⟩⟩

/-- What stands behind a separator does not always arrive as it is. -/
theorem not_forall_parse_separator :
    ¬∀ (a b : List Text) (shell : Shell),
      (roles (a ++ [separator])).getLast? = some (separator, .option) →
      ∀ o p, parse a shell = (.ok o, p) →
        parse (a ++ separator :: b) shell =
          (.ok (p.passing (separator :: b)).options, p.passing (separator :: b)) := by
  intro h
  have hread := h [] ["--target", "x"] {} (by decide +kernel) {} { shell := {} } rfl
  have hargs := congrArg (fun r => r.2.options.cargoArgs) hread
  exact absurd hargs (by decide +kernel)

end FirmwareBuild.CargoOptions
