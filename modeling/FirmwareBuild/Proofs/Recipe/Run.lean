import FirmwareBuild.Proofs.Host.Action
import FirmwareBuild.Recipe

/-! What a run of a recipe does to a host.

`run_run` says it in one equation: the command is printed and started, and by its outcome
alone either its warnings are printed or its messages are passed on. -/
namespace FirmwareBuild

namespace Host

/-- The host after lines have been printed. -/
def printed (h : Host) (ls : List Text) : Host :=
  { h with output := h.output ++ ls.flatMap fun l => l ++ [.char '\n'] }

theorem printed_nil (h : Host) : h.printed [] = h := by
  rw [printed, List.flatMap_nil, List.append_nil]

theorem printed_printed (h : Host) (a b : List Text) :
    (h.printed a).printed b = h.printed (a ++ b) := by
  rw [printed, printed, printed, List.flatMap_append, List.append_assoc]

theorem run_printLine_eq (h : Host) (l : Text) : h.run (printLine l) = (.ok (), h.printed [l]) := by
  rw [run_printLine, printed, List.flatMap_singleton]
  rfl

theorem run_forIn_printLine (h : Host) (f : Text → Text) (ls : List Text) :
    h.run (forIn ls PUnit.unit fun l _ => do printLine (f l); pure (.yield PUnit.unit)) =
      (.ok PUnit.unit, h.printed (ls.map f)) := by
  induction ls generalizing h with
  | nil => rw [List.forIn_nil, run_pure, List.map_nil, printed_nil]
  | cons l ls ih =>
    rw [List.forIn_cons, bind_assoc, run_bind, run_printLine_eq]
    simp only [pure_bind]
    rw [ih, printed_printed, List.map_cons, List.singleton_append]

end Host

namespace Recipe

open Host (Outcome)

/-- The lines that are printed for the warnings of a tool. -/
def warned : Outcome → List Text
  | .ends e =>
    if e.code = 0 then
      (warnings (Text.Utf8.decodeLossy e.messages)).map ("cargo:warning=" ++ ·)
    else []
  | _ => []

/-- The host after a run of a recipe. -/
def ran (h : Host) (cmd : List Text) : Host :=
  let h' := h.printed [Host.formatCommand cmd []]
  Host.printed { h'.started ⟨cmd, none, none, true⟩ with
    messages := h'.messages ++ (h.outcome 0).relayed } (warned (h.outcome 0))

theorem launches_ran (h : Host) (cmd : List Text) :
    (ran h cmd).launches = h.launches ++ [⟨cmd, none, none, true⟩] := rfl

theorem outcome_ran (h : Host) (cmd : List Text) (n : Nat) :
    (ran h cmd).outcome n = h.outcome (n + 1) := Host.outcome_started h ⟨cmd, none, none, true⟩ n

theorem output_ran (h : Host) (cmd : List Text) : (ran h cmd).output =
    (h.printed (Host.formatCommand cmd [] :: warned (h.outcome 0))).output := by
  show ((h.printed [Host.formatCommand cmd []]).printed (warned (h.outcome 0))).output = _
  rw [Host.printed_printed, List.singleton_append]

/-- A recipe whose command is no blank line starts one tool. -/
theorem run_run {r : Recipe} {p : Params} {program : Path} {args : List Text}
    (hc : r.command p = .ok (program, args)) (h : Host) :
    h.run (r.run p) =
      ((h.outcome 0).success (program.toText :: args), ran h (program.toText :: args)) := by
  generalize hcmd : program.toText :: args = cmd
  have ho : (h.printed [Host.formatCommand cmd []]).outcome 0 = h.outcome 0 := rfl
  rw [run, hc]
  simp only [Host.run_bind, Host.run_lift, mapError_ok, hcmd, Host.run_printLine_eq,
    Host.run_runForOutput, ho]
  cases hs : (h.outcome 0).success cmd with
  | ok e =>
    obtain ⟨he, hcode⟩ := Outcome.success_eq_ok.1 hs
    simp only [Host.run_forIn_printLine, Host.run_pure]
    rw [ran, he, warned, if_pos hcode]
    rfl
  | error e =>
    have hw : warned (h.outcome 0) = [] := by
      cases ho : h.outcome 0 with
      | ends x =>
        rw [warned, if_neg]
        intro hx
        rw [ho, Outcome.success_eq_ok.2 ⟨rfl, hx⟩] at hs
        exact nomatch hs
      | refused => rfl
      | interrupted => rfl
    rw [ran, hw, Host.printed_nil]
    rfl

end Recipe
end FirmwareBuild
