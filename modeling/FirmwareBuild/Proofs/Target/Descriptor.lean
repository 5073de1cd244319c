import FirmwareBuild.Path.Normal
import FirmwareBuild.Proofs.Host.Files
import FirmwareBuild.Proofs.Text.Lower
import FirmwareBuild.Target

/-! Descriptors on disk.

A directory of descriptors is filled by calls that may each fail. A call finds the descriptor of
its board, or fails and changes no file, or makes exactly one file that is complete:
`create_cases`. What one call leaves alone, every sequence of calls leaves alone:
`descriptors_writtenOnce`. -/
namespace FirmwareBuild.Target

open Host (child FileName.canonical)
open Host.FileTree (Furnished)

/-! ### Files of descriptors -/

/-- A board whose descriptor is a file right in a directory of descriptors. -/
structure HasFile (b : Board) : Prop where
  vendor : .char '/' ∉ b.vendor
  arch : .char '/' ∉ b.arch
  board : .char '/' ∉ b.board

theorem mem_of_mem_namePart {c : CodePoint} {s : Text}
    (hc : c.toNat < 0x61 ∨ 0xd800 ≤ c.toNat ∧ c.toNat < 0xe000) (hne : c ≠ .char '_')
    (h : c ∈ namePart s) : c ∈ s := by
  obtain ⟨d, hd, hdc⟩ := List.mem_map.1 h
  split at hdc
  · exact absurd hdc.symm hne
  · exact Text.mem_of_mem_lower hc (hdc ▸ hd)

theorem slash_not_mem_name {b : Board} (hb : HasFile b) : .char '/' ∉ name b := by
  have hpart {s : Text} (hs : .char '/' ∉ s) : .char '/' ∉ namePart s :=
    fun h => hs (mem_of_mem_namePart (by decide) (by decide) h)
  have hdash : (.char '/' : CodePoint) ∉ (("-" : String) : Text) := by decide
  simp only [name, List.mem_append, not_or]
  exact ⟨⟨⟨⟨hpart hb.arch, hdash⟩, hpart hb.vendor⟩, hdash⟩, hpart hb.board⟩

theorem fileName_length (n : Text) : (n ++ (".json" : Text)).length = n.length + 5 := by
  rw [List.length_append]
  rfl

/-- Two dots name the directory above, and no descriptor. -/
theorem fileName_ne (n : Text) : n ++ (".json" : Text) ≠ ".." := fun h => by
  have hl := congrArg List.length h
  rw [fileName_length] at hl
  exact absurd hl (by simp [Text.ofString, Text.ofChars])

theorem file_eq {n : Text} (hn : .char '/' ∉ n) (dir : Path) :
    file dir n = child dir (n ++ (".json" : Text)) := by
  have hlen := fileName_length n
  have hpart : Path.isPart (n ++ (".json" : Text)) = true := by
    simp only [Path.isPart, Bool.and_eq_true, bne_iff_ne]
    constructor
    · exact fun h => by simp [h] at hlen
    · exact fun h => by simp [h] at hlen
  have hslash : .char '/' ∉ n ++ (".json" : Text) := by
    rw [List.mem_append, not_or]
    exact ⟨hn, by decide⟩
  have hnormal : Path.IsNormal ⟨.relative, [n ++ (".json" : Text)]⟩ := by
    intro part hm
    obtain rfl := List.mem_singleton.1 hm
    exact ⟨hpart, hslash⟩
  have htext : Path.ofText (n ++ (".json" : Text)) = ⟨.relative, [n ++ (".json" : Text)]⟩ := by
    have hread := Path.ofText_toText hnormal
    rw [Path.toText_eq (fun h => List.cons_ne_nil _ _ h.2)] at hread
    simpa [Path.Root.text, Path.joined, Text.ofString, Text.ofChars] using hread
  show dir.join (Path.ofText (n ++ (".json" : Text))) = _
  rw [htext, Path.join, if_pos rfl, child]

/-! ### Calls -/

/-- A listener that neither fails nor touches the files and the tools of a host. -/
def IsBystander (notify : Text → Text → Action Unit) : Prop :=
  ∀ (h : Host) status message, ∃ h', h.run (notify status message) = (.ok (), h') ∧
    h'.tree = h.tree ∧ h'.directory = h.directory ∧ h'.outcomes = h.outcomes ∧
    h'.launches = h.launches

theorem isBystander_note : IsBystander Host.note := fun _ _ _ => ⟨_, rfl, rfl, rfl, rfl, rfl⟩

/-- What a descriptor is made for: a board with its architecture and processor, and the arguments
of its linker; and the compiler that is asked. -/
structure Call where
  rustc : Text
  board : Board
  arch : Text
  cpu : Text
  options : LinkOptions

namespace Call

/-- The descriptor that a call has its board have. -/
def path (dir : Path) (c : Call) : Path := file dir (name c.board)

def make (notify : Text → Text → Action Unit) (dir : Path) (c : Call) : Action (Text × Text) :=
  create notify dir c.rustc c.board c.arch c.cpu c.options

/-- The host that a call leaves behind. -/
def after (notify : Text → Text → Action Unit) (dir : Path) (h : Host) (c : Call) : Host :=
  (h.run (c.make notify dir)).2

/-- The octets of the descriptor that a call makes of what the compiler wrote. -/
def Describes (c : Call) (output octets : List UInt8) : Prop :=
  ∃ own fields, Json.parseOctets output = .ok (.object own) ∧
    customize own c.options (.text c.cpu) = .ok fields ∧
    octets = Text.Utf8.encode (Json.printIndented (.object fields))

end Call

variable {notify : Text → Text → Action Unit} {dir : Path}

/-- The host that calls leave behind that are made one after the other. -/
def after (notify : Text → Text → Action Unit) (dir : Path) (h : Host) (calls : List Call) : Host :=
  calls.foldl (Call.after notify dir) h

/-! ### One call -/

/-- The compiler is asked once, and a descriptor of its own is the object that it wrote. -/
theorem run_builtin (hnotify : IsBystander notify) (h : Host) (rustc triple : Text) :
    ∃ r h', h.run (builtin notify rustc triple) = (r, h') ∧ h'.tree = h.tree ∧
      h'.directory = h.directory ∧
      h'.launches = h.launches ++ [⟨query rustc triple, none, none, true⟩] ∧
      ∀ own, r = .ok own → ∃ ending, h.outcome 0 = .ends ending ∧ ending.code = 0 ∧
        Json.parseOctets ending.output = .ok (.object own) := by
  obtain ⟨h₁, hrun, htree, hdir, hout, hlaunches⟩ :=
    hnotify h "Running" (Host.formatCommand (query rustc triple) [])
  have houtcome : h₁.outcome 0 = h.outcome 0 := by rw [Host.outcome, Host.outcome, hout]
  rw [builtin, Host.run_bind_of_ok hrun, Host.run_bind, Host.run_runForOutput, houtcome]
  cases hsuccess : (h.outcome 0).success (query rustc triple) with
  | error e =>
    refine ⟨.error e, _, rfl, htree, hdir, ?_, fun own hown => by cases hown⟩
    rw [← hlaunches]
    rfl
  | ok ending =>
    obtain ⟨hends, hcode⟩ := Host.Outcome.success_eq_ok.1 hsuccess
    simp only
    split
    · next own hparse =>
      refine ⟨.ok own, _, rfl, htree, hdir, ?_, fun own' h' => ?_⟩
      · rw [← hlaunches]
        rfl
      · obtain rfl := Except.ok.inj h'
        exact ⟨ending, hends, hcode, hparse⟩
    all_goals
      refine ⟨.error _, _, rfl, htree, hdir, ?_, fun own hown => by cases hown⟩
      rw [← hlaunches]
      rfl

/-- What a call that makes a descriptor does to a host. -/
structure Call.Makes (dir : Path) (c : Call) (h h' : Host) (l : Host.Location)
    (octets : List UInt8) : Prop where
  missing : h.isFile (c.path dir) = .ok false
  asked : ∃ triple ending, Target.triple c.arch c.cpu = .ok triple ∧
    h'.launches = h.launches ++ [⟨query c.rustc triple, none, none, true⟩] ∧
    h.outcome 0 = .ends ending ∧ ending.code = 0 ∧ c.Describes ending.output octets
  possible : Host.pathDefect? (c.path dir) = none
  written : ∃ tree, Furnished h.tree tree ∧ tree.resolve h.directory (c.path dir) = .ok l ∧
    tree.kindAt l ≠ some .directory ∧ h'.tree = tree.insert l (.file octets)
  directory : h'.directory = h.directory

/-- The part of a call that makes a descriptor. -/
def Call.compose (notify : Text → Text → Action Unit) (dir : Path) (c : Call) (triple : Text) :
    Action (Text × Text) := do
  let own ← builtin notify c.rustc triple
  let fields ← Host.lift .defect (customize own c.options (.text c.cpu))
  let unwritable := Host.Refusal.failure fun fault => .target (.unwritable (c.path dir) fault)
  Host.lift unwritable (← Host.makeDirectories (c.path dir).parent)
  Host.lift unwritable
    (← Host.writeFile (c.path dir) (Text.Utf8.encode (Json.printIndented (.object fields))))
  return (triple, name c.board)

theorem run_make (h : Host) (c : Call) :
    h.run (c.make notify dir) =
      match triple c.arch c.cpu, h.isFile (c.path dir) with
      | .error e, _ => (.error (.target e), h)
      | .ok _, .error e => (.error e, h)
      | .ok t, .ok true => (.ok (t, name c.board), h)
      | .ok t, .ok false => h.run (c.compose notify dir t) := by
  rw [Call.make, create]
  cases triple c.arch c.cpu with
  | error e => rfl
  | ok t =>
    rw [Host.run_bind_of_ok (Host.run_lift h .target (.ok t)),
      Host.run_bind_of_ok (Host.run_get h), Host.run_bind, Host.run_lift]
    rw [Call.path]
    cases h.isFile (file dir (name c.board)) with
    | error e => rfl
    | ok found => cases found <;> rfl

/-- Making a descriptor fails with nothing but new directories, or one file is written. -/
theorem compose_cases (hnotify : IsBystander notify) {h : Host} {c : Call} {t : Text}
    (ht : triple c.arch c.cpu = .ok t) (hfile : h.isFile (c.path dir) = .ok false) :
    (∃ e h', h.run (c.compose notify dir t) = (.error e, h') ∧ Furnished h.tree h'.tree ∧
        h'.directory = h.directory) ∨
      ∃ made h' l octets, h.run (c.compose notify dir t) = (.ok made, h') ∧
        c.Makes dir h h' l octets := by
  obtain ⟨own, h₁, hrun, htree, hdir, hlaunches, hown⟩ := run_builtin hnotify h c.rustc t
  rw [Call.compose, Host.run_bind, hrun]
  cases own with
  | error e => exact .inl ⟨e, h₁, rfl, htree ▸ .refl _, hdir⟩
  | ok own =>
    obtain ⟨ending, hends, hcode, hparse⟩ := hown own rfl
    simp only [Host.run_bind, Host.run_lift]
    cases hcustom : customize own c.options (.text c.cpu) with
    | error e => exact .inl ⟨_, h₁, rfl, htree ▸ .refl _, hdir⟩
    | ok fields =>
      obtain ⟨directories, tree, hmake, hfurnished⟩ :=
        Host.run_makeDirectories_furnished h₁ (c.path dir).parent
      rw [htree] at hfurnished
      simp only [mapError_ok, hmake]
      cases directories with
      | error refusal => exact .inl ⟨_, _, rfl, hfurnished, hdir⟩
      | ok done =>
        rcases Host.run_writeFile_cases { h₁ with tree } (c.path dir)
          (Text.Utf8.encode (Json.printIndented (.object fields))) with
          ⟨refusal, hwrite⟩ | ⟨l, hwrite, hpossible, hresolve, hkind⟩
        · simp only [mapError_ok, hwrite]
          exact .inl ⟨_, _, rfl, hfurnished, hdir⟩
        · simp only [mapError_ok, hwrite]
          refine .inr ⟨_, _, l, Text.Utf8.encode (Json.printIndented (.object fields)), rfl, hfile,
            ?_, hpossible, ?_, hdir⟩
          · exact ⟨t, ending, ht, hlaunches, hends, hcode, own, fields, hparse, hcustom, rfl⟩
          · exact ⟨tree, hfurnished, hdir ▸ hresolve, hkind, rfl⟩

/-- A call changes nothing, or fails with nothing but new directories, or makes a descriptor. -/
theorem make_cases (hnotify : IsBystander notify) (dir : Path) (h : Host) (c : Call) :
    (∃ r, h.run (c.make notify dir) = (r, h) ∧
        ∀ made, r = .ok made → h.isFile (c.path dir) = .ok true) ∨
      (∃ e h', h.run (c.make notify dir) = (.error e, h') ∧ Furnished h.tree h'.tree ∧
        h'.directory = h.directory) ∨
      ∃ made h' l octets, h.run (c.make notify dir) = (.ok made, h') ∧
        c.Makes dir h h' l octets := by
  rw [run_make]
  cases ht : triple c.arch c.cpu with
  | error e => exact .inl ⟨_, rfl, nofun⟩
  | ok t =>
    cases hfile : h.isFile (c.path dir) with
    | error e => exact .inl ⟨_, rfl, nofun⟩
    | ok found =>
      cases found with
      | true => exact .inl ⟨_, rfl, fun _ _ => rfl⟩
      | false => exact .inr (compose_cases hnotify ht hfile)

/-! ### Files behind a call -/

theorem after_of_run {h h' : Host} {c : Call} {r : Except Failure (Text × Text)}
    (hrun : h.run (c.make notify dir) = (r, h')) : c.after notify dir h = h' := by
  rw [Call.after, hrun]

/-- Where a file stands after a descriptor has been made. -/
theorem Call.Makes.fileAt? {c : Call} {h h' : Host} {l : Host.Location} {octets : List UInt8}
    (hm : c.Makes dir h h' l octets) (m : Host.Location) :
    h'.tree.fileAt? m = if m = l then some octets else h.tree.fileAt? m := by
  obtain ⟨tree, hfurnished, hresolve, hkind, htree⟩ := hm.written
  rw [htree, Host.FileTree.fileAt?_insert (Host.FileTree.isRooted_resolve hresolve) hkind,
    hfurnished.fileAt?]

/-- Making a descriptor takes no directory away. -/
theorem Call.Makes.directories {c : Call} {h h' : Host} {l : Host.Location} {octets : List UInt8}
    (hm : c.Makes dir h h' l octets) (m : Host.Location)
    (hk : h.tree.kindAt m = some .directory) : h'.tree.kindAt m = some .directory := by
  obtain ⟨tree, hfurnished, hresolve, hkind, htree⟩ := hm.written
  have hkept := hfurnished.kept m _ hk
  have hne : m ≠ l := by
    rintro rfl
    exact hkind hkept
  rw [htree, Host.FileTree.kindAt_insert (Host.Entry.isBare_file octets)
    (Host.FileTree.isRooted_resolve hresolve) hkind, if_neg hne, hkept]

/-- The descriptor that is made is at its path. -/
theorem Call.Makes.resolve {c : Call} {h h' : Host} {l : Host.Location} {octets : List UInt8}
    (hm : c.Makes dir h h' l octets) : h'.tree.resolve h'.directory (c.path dir) = .ok l := by
  obtain ⟨tree, hfurnished, hresolve, hkind, htree⟩ := hm.written
  rw [hm.directory, htree]
  refine Host.FileTree.resolve_of_directories (fun m hk => ?_) hresolve
  have hne : m ≠ l := by
    rintro rfl
    exact hkind hk
  rw [Host.FileTree.kindAt_insert (Host.Entry.isBare_file octets)
    (Host.FileTree.isRooted_resolve hresolve) hkind, if_neg hne, hk]

theorem Call.Makes.content {c : Call} {h h' : Host} {l : Host.Location} {octets : List UInt8}
    (hm : c.Makes dir h h' l octets) : h'.content (c.path dir) = .ok octets :=
  Host.content_eq_ok.2 ⟨hm.possible, l, hm.resolve, by rw [hm.fileAt?, if_pos rfl]⟩

/-- A descriptor that is made is not where another one has been. -/
theorem Call.Makes.content_other {b : Board} (hb : HasFile b) {c : Call} (hc : HasFile c.board)
    {h h' : Host} {l : Host.Location} {octets before : List UInt8}
    (hm : c.Makes dir h h' l octets) (hcontent : h.content (file dir (name b)) = .ok before) :
    h'.content (file dir (name b)) = .ok before := by
  obtain ⟨hpossible, m, hresolve, hfile⟩ := Host.content_eq_ok.1 hcontent
  have hdirs := hm.directories
  have hafter : h'.tree.resolve h'.directory (file dir (name b)) = .ok m := by
    rw [hm.directory]
    exact Host.FileTree.resolve_of_directories hdirs hresolve
  have hne : m ≠ l := by
    rintro rfl
    have hpath : h.tree.resolve h.directory (c.path dir) = .ok m := by
      have hmade := hm.resolve
      rw [hm.directory, Call.path, file_eq (slash_not_mem_name hc)] at hmade
      rw [file_eq (slash_not_mem_name hb)] at hresolve
      rw [Call.path, file_eq (slash_not_mem_name hc)]
      exact Host.resolve_sibling hdirs (fileName_ne _) (fileName_ne _) hresolve hmade
    have htrue := Host.isFile_eq_ok_true.2
      ⟨before, Host.content_eq_ok.2 ⟨hm.possible, m, hpath, hfile⟩⟩
    exact absurd (hm.missing.symm.trans htrue) (by simp)
  refine Host.content_eq_ok.2 ⟨hpossible, m, hafter, ?_⟩
  rw [hm.fileAt?, if_neg hne, hfile]

theorem content_of_furnished {h h' : Host} {p : Path} {octets : List UInt8}
    (hf : Furnished h.tree h'.tree) (hdir : h'.directory = h.directory)
    (hcontent : h.content p = .ok octets) : h'.content p = .ok octets := by
  obtain ⟨hpossible, l, hresolve, hfile⟩ := Host.content_eq_ok.1 hcontent
  refine Host.content_eq_ok.2 ⟨hpossible, l, ?_, ?_⟩
  · rw [hdir]
    exact Host.FileTree.resolve_of_directories (fun m => hf.kept m _) hresolve
  · rw [hf.fileAt?, hfile]

/-- A call leaves the descriptors that it finds. -/
theorem content_after (hnotify : IsBystander notify) {b : Board} (hb : HasFile b) {c : Call}
    (hc : HasFile c.board) {h : Host} {octets : List UInt8}
    (hcontent : h.content (file dir (name b)) = .ok octets) :
    (c.after notify dir h).content (file dir (name b)) = .ok octets := by
  rcases make_cases hnotify dir h c with
    ⟨r, hrun, -⟩ | ⟨e, h', hrun, hfurnished, hdir⟩ | ⟨made, h', l, written, hrun, hm⟩
  · rw [after_of_run hrun]
    exact hcontent
  · rw [after_of_run hrun]
    exact content_of_furnished hfurnished hdir hcontent
  · rw [after_of_run hrun]
    exact hm.content_other hb hc hcontent

/-- Calls leave the descriptors that they find. -/
theorem content_run (hnotify : IsBystander notify) {b : Board} (hb : HasFile b)
    {calls : List Call} (hcalls : ∀ c ∈ calls, HasFile c.board) {h : Host} {octets : List UInt8}
    (hcontent : h.content (file dir (name b)) = .ok octets) :
    (after notify dir h calls).content (file dir (name b)) = .ok octets := by
  induction calls generalizing h with
  | nil => exact hcontent
  | cons c rest ih =>
    exact ih (fun d hd => hcalls d (List.mem_cons_of_mem _ hd))
      (content_after hnotify hb (hcalls c (List.mem_cons_self ..)) hcontent)

/-- A call for a board that has a descriptor changes nothing at all. -/
theorem after_of_content {h : Host} {c : Call} {octets : List UInt8}
    (hcontent : h.content (c.path dir) = .ok octets) : c.after notify dir h = h := by
  rw [Call.after, run_make, Host.isFile_eq_ok_true.2 ⟨octets, hcontent⟩]
  cases triple c.arch c.cpu <;> rfl

/-- **A descriptor is written once and as a whole.** Of calls that are made one after the other on
a directory: a descriptor that is there stays as it is, and no call for a board of that name asks
the compiler; a call that fails changes no file; and a call that gives a result has found its
descriptor, or made it out of what the compiler wrote for this call, and has touched no other
file. -/
theorem descriptors_writtenOnce (hnotify : IsBystander notify) (dir : Path) (h : Host)
    (calls : List Call) (hcalls : ∀ c ∈ calls, HasFile c.board) (c : Call)
    (hc : HasFile c.board) :
    let h₁ := after notify dir h calls
    let h₂ := after notify dir h (calls ++ [c])
    let result := (h₁.run (c.make notify dir)).1
    (∀ b octets, HasFile b → h.content (file dir (name b)) = .ok octets →
        h₂.content (file dir (name b)) = .ok octets ∧
          (name c.board = name b → h₂.launches = h₁.launches)) ∧
      (∀ e, result = .error e → ∀ l, h₂.tree.fileAt? l = h₁.tree.fileAt? l) ∧
      (∀ made, result = .ok made →
        h₁.isFile (c.path dir) = .ok true ∧ h₂ = h₁ ∨
          h₁.isFile (c.path dir) = .ok false ∧ ∃ triple ending octets l,
            h₂.launches = h₁.launches ++ [⟨query c.rustc triple, none, none, true⟩] ∧
            h₁.outcome 0 = .ends ending ∧ ending.code = 0 ∧
            c.Describes ending.output octets ∧ h₂.content (c.path dir) = .ok octets ∧
            h₂.tree.resolve h₂.directory (c.path dir) = .ok l ∧
            ∀ m, h₂.tree.fileAt? m = if m = l then some octets else h₁.tree.fileAt? m) := by
  intro h₁ h₂ result
  have hlast : h₂ = c.after notify dir h₁ := by
    show after notify dir h (calls ++ [c]) = _
    rw [after, List.foldl_append]
    rfl
  refine ⟨fun b octets hb hcontent => ⟨?_, fun hname => ?_⟩, fun e he l => ?_, fun made hmade => ?_⟩
  · refine content_run hnotify hb (fun d hd => ?_) hcontent
    rcases List.mem_append.1 hd with hd | hd
    · exact hcalls d hd
    · exact List.mem_singleton.1 hd ▸ hc
  · have hkept : h₁.content (c.path dir) = .ok octets := by
      rw [Call.path, hname]
      exact content_run hnotify hb hcalls hcontent
    rw [hlast, after_of_content hkept]
  · rw [hlast]
    rcases make_cases hnotify dir h₁ c with
      ⟨r, hrun, -⟩ | ⟨e', h', hrun, hfurnished, -⟩ | ⟨made, h', l', octets, hrun, -⟩
    · rw [after_of_run hrun]
    · rw [after_of_run hrun]
      exact hfurnished.fileAt? l
    · exact absurd ((congrArg Prod.fst hrun).symm.trans he) nofun
  · rw [hlast]
    rcases make_cases hnotify dir h₁ c with
      ⟨r, hrun, hfound⟩ | ⟨e', h', hrun, -, -⟩ | ⟨made', h', l, octets, hrun, hm⟩
    · rw [after_of_run hrun]
      exact .inl ⟨hfound made ((congrArg Prod.fst hrun).symm.trans hmade), rfl⟩
    · exact absurd ((congrArg Prod.fst hrun).symm.trans hmade) nofun
    · rw [after_of_run hrun]
      obtain ⟨triple, ending, -, hlaunches, hends, hcode, hdescribes⟩ := hm.asked
      exact .inr ⟨hm.missing, triple, ending, octets, l, hlaunches, hends, hcode, hdescribes,
        hm.content, hm.resolve, hm.fileAt?⟩

/-- A call for a board, with nothing for the linker. -/
def plain : Call where
  rustc := "rustc"
  board := ⟨"v", "avr", "b", []⟩
  arch := "avr"
  cpu := "m"
  options := { command := "ld" }

/-- A host without files on which the compiler writes an object without fields. -/
def answering : Host :=
  { (default : Host) with tree := .empty, outcomes := [.ends ⟨0, [0x7b, 0x7d], []⟩] }

theorem descriptors_writtenOnce_plain :
    let h₁ := after Host.note (.ofText "t") answering [plain]
    let h₂ := after Host.note (.ofText "t") h₁ [plain]
    ∃ octets, plain.Describes [0x7b, 0x7d] octets ∧
      h₁.content (plain.path (.ofText "t")) = .ok octets ∧
      h₂.content (plain.path (.ofText "t")) = .ok octets ∧ h₂.launches = h₁.launches := by
  intro h₁ h₂
  have hplain : HasFile plain.board := ⟨by decide, by decide, by decide⟩
  have hok : (answering.run (plain.make Host.note (.ofText "t"))).1.isOk = true := by
    decide +kernel
  have hmissing : (answering.isFile (plain.path (.ofText "t"))).toOption = some false := by
    decide +kernel
  obtain ⟨-, -, hfirst⟩ :=
    descriptors_writtenOnce isBystander_note (.ofText "t") answering [] nofun plain hplain
  cases hr : (answering.run (plain.make Host.note (.ofText "t"))).1 with
  | error e =>
    rw [hr] at hok
    exact nomatch hok
  | ok made =>
    rcases hfirst made hr with
      ⟨hfound, -⟩ | ⟨-, triple, ending, octets, l, -, hends, -, hdescribes, hcontent, -⟩
    · rw [toOption_eq_some (show answering.isFile (plain.path (.ofText "t")) = _ from hfound)]
        at hmissing
      exact nomatch hmissing
    · obtain rfl : (⟨0, [0x7b, 0x7d], []⟩ : Host.Ending) = ending :=
        Host.Outcome.ends.inj hends
      obtain ⟨hagain, -⟩ :=
        descriptors_writtenOnce isBystander_note (.ofText "t") h₁ [] nofun plain hplain
      obtain ⟨hkept, hquiet⟩ := hagain plain.board octets hplain hcontent
      exact ⟨octets, hdescribes, hcontent, hkept, hquiet rfl⟩

end FirmwareBuild.Target
