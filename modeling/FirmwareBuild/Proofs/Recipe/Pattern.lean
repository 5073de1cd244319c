import FirmwareBuild.Native.Compiler
import FirmwareBuild.Proofs.CommandLine
import FirmwareBuild.Proofs.Recipe.Pieces

/-! Patterns word by word.

A pattern is a row of words, and the files of a call may stand within double quotes only.
It is filled in as a flat text and then split, so a file whose name holds a blank or a quote
could fall apart or run into its neighbours. `words_fill` says that it does not, as long as
no file name holds a double quote or a line feed: splitting gives word by word what the words
of the pattern stand for (`Word.value`). -/
namespace FirmwareBuild.Recipe

/-- A file of a call. -/
inductive Slot
  | source
  | object
  | archive
deriving Repr, DecidableEq

/-- A code point of a word, or a file. -/
inductive Part
  | char (c : CodePoint)
  | slot (s : Slot)
deriving Repr, DecidableEq

/-- A word of a pattern; only one in double quotes can hold files. -/
inductive Word
  | bare (t : Text)
  | single (t : Text)
  | double (ps : List Part)
deriving Repr, DecidableEq

/-- A word, or the place of the include directories. -/
inductive Item
  | word (w : Word)
  | includes
deriving Repr, DecidableEq

/-- A row of items. Each one after the first has as many spaces before it as its number says,
and one more. -/
structure Pattern where
  first : Word
  rest : List (Nat × Item)
deriving Repr, DecidableEq

/-! ### As it is written -/

def Slot.name : Slot → Text
  | .source => "source_file"
  | .object => "object_file"
  | .archive => "archive_file"

def Part.text : Part → Text
  | .char c => [c]
  | .slot s => .char '%' :: s.name

def Word.text : Word → Text
  | .bare t => t
  | .single t => .char '\'' :: (t ++ [.char '\''])
  | .double ps => .char '"' :: (ps.flatMap Part.text ++ [.char '"'])

def Item.text : Item → Text
  | .word w => w.text
  | .includes => "%includes"

/-- Items with the spaces before them. -/
def rowText (es : List (Nat × Item)) : Text :=
  es.flatMap fun e => List.replicate (e.1 + 1) (.char ' ') ++ e.2.text

def Pattern.text (pat : Pattern) : Text := pat.first.text ++ rowText pat.rest

/-! ### What it stands for -/

def Slot.value (p : Params) : Slot → Text
  | .source => p.sourceFile
  | .object => p.objectFile
  | .archive => p.archiveFile

def Part.value (p : Params) : Part → Text
  | .char c => [c]
  | .slot s => s.value p

def Word.value (p : Params) : Word → Text
  | .bare t => t
  | .single t => t
  | .double ps => ps.flatMap (Part.value p)

/-- The argument for an include directory. -/
def includeFlag (dir : Text) : Text := "-I" ++ dir

/-- An item is one word, or one for each include directory. -/
def Item.words (p : Params) (dirs : List Text) : Item → List Text
  | .word w => [w.value p]
  | .includes => dirs.map includeFlag

/-- The arguments of a call, and the program before them. -/
def Pattern.argv (p : Params) (dirs : List Text) (pat : Pattern) : List Text :=
  (Path.ofText (pat.first.value p)).toText :: pat.rest.flatMap (·.2.words p dirs)

/-! ### When it is sound -/

/-- Code points that neither close a word nor look like a file, and no word character right
behind a file. -/
def PartsSound : List Part → Prop
  | [] => True
  | .char c :: ps => c ≠ .char '"' ∧ c ≠ .char '\n' ∧ c ≠ .char '%' ∧ PartsSound ps
  | .slot _ :: ps => EndsWord (ps.flatMap Part.text) ∧ PartsSound ps

def Word.IsSound : Word → Prop
  | .bare t => t.head?.any (!CommandLine.isQuote ·) = true ∧
      ∀ c ∈ t, Text.isBlank c = false ∧ c ≠ .char '%'
  | .single t => ∀ c ∈ t, c ≠ .char '\'' ∧ c ≠ .char '\n' ∧ c ≠ .char '%'
  | .double ps => PartsSound ps

def Item.IsSound : Item → Prop
  | .word w => w.IsSound
  | .includes => True

def Pattern.IsSound (pat : Pattern) : Prop := pat.first.IsSound ∧ ∀ e ∈ pat.rest, e.2.IsSound

/-- Whether a text can stand within double quotes. -/
def Fits (t : Text) : Prop := .char '"' ∉ t ∧ .char '\n' ∉ t

/-- Whether the files of a call can stand within double quotes. -/
def Params.Fit (p : Params) : Prop := ∀ s : Slot, Fits (s.value p)

instance decidablePartsSound : (ps : List Part) → Decidable (PartsSound ps)
  | [] => .isTrue trivial
  | .char _ :: ps =>
    have := decidablePartsSound ps
    inferInstanceAs (Decidable (_ ∧ _ ∧ _ ∧ _))
  | .slot _ :: ps =>
    have := decidablePartsSound ps
    inferInstanceAs (Decidable ((_ = false) ∧ _))

instance : (w : Word) → Decidable w.IsSound
  | .bare _ => inferInstanceAs (Decidable (_ ∧ _))
  | .single t => inferInstanceAs (Decidable (∀ c ∈ t, _))
  | .double ps => decidablePartsSound ps

instance : (i : Item) → Decidable i.IsSound
  | .word w => inferInstanceAs (Decidable w.IsSound)
  | .includes => .isTrue trivial

instance (pat : Pattern) : Decidable pat.IsSound := inferInstanceAs (Decidable (_ ∧ _))

instance (t : Text) : Decidable (Fits t) := inferInstanceAs (Decidable (_ ∧ _))

/-! ### Filling in -/

/-- A word as it stands once it is filled in. -/
def Word.filled (p : Params) : Word → Text
  | .bare t => t
  | .single t => .char '\'' :: (t ++ [.char '\''])
  | .double ps => .char '"' :: (ps.flatMap (Part.value p) ++ [.char '"'])

theorem endsWord_append {a b : Text} (ha : EndsWord a) (hb : EndsWord b) : EndsWord (a ++ b) := by
  cases a with
  | nil => exact hb
  | cons c rest =>
    rw [List.cons_append, endsWord_cons]
    exact endsWord_cons.1 ha

theorem endsWord_rowText (es : List (Nat × Item)) : EndsWord (rowText es) := by
  cases es with
  | nil => rfl
  | cons e es =>
    have hr : rowText (e :: es) =
        .char ' ' :: (List.replicate e.1 (.char ' ') ++ e.2.text ++ rowText es) := rfl
    rw [hr, endsWord_cons]
    decide

/-- A file is filled in behind its percent sign. -/
theorem fill_slot (p : Params) (slot : Slot) {s : Text} (hs : EndsWord s) :
    fill p ((Part.slot slot).text ++ s) = slot.value p ++ fill p s := by
  have hw : ∀ c ∈ slot.name, Text.isWordChar c = true := by
    cases slot <;> decide
  have hne : slot.name ≠ [] := by
    cases slot <;> decide
  have hv : p.value slot.name = slot.value p := by
    cases slot <;> rfl
  show fill p (.char '%' :: (slot.name ++ s)) = _
  rw [fill_word p hne hw hs, hv]

theorem fill_parts (p : Params) {ps : List Part} (h : PartsSound ps) {s : Text}
    (hs : EndsWord s) :
    fill p (ps.flatMap Part.text ++ s) = ps.flatMap (Part.value p) ++ fill p s := by
  induction ps with
  | nil => rfl
  | cons part ps ih =>
    rw [List.flatMap_cons, List.flatMap_cons, List.append_assoc, List.append_assoc]
    cases part with
    | char c =>
      obtain ⟨-, -, hc, h⟩ := h
      show fill p (c :: (ps.flatMap Part.text ++ s)) = _
      rw [fill_char p fun he => absurd he hc, ih h]
      rfl
    | slot slot =>
      rw [fill_slot p slot (endsWord_append h.1 hs), ih h.2]
      rfl

/-- A sound word is filled in on its own. -/
theorem fill_wordText (p : Params) {w : Word} (h : w.IsSound) (s : Text) :
    fill p (w.text ++ s) = w.filled p ++ fill p s := by
  cases w with
  | bare t =>
    have ht : .char '%' ∉ t := fun hm => (h.2 _ hm).2 rfl
    exact fill_append p ht s
  | single t =>
    have ht : .char '%' ∉ (Word.single t).text := by
      intro hm
      rw [Word.text, List.mem_cons, List.mem_append, List.mem_singleton] at hm
      rcases hm with hm | hm | hm
      · exact absurd hm (by decide)
      · exact (h _ hm).2.2 rfl
      · exact absurd hm (by decide)
    exact fill_append p ht s
  | double ps =>
    have hq : EndsWord (.char '"' :: s) := endsWord_cons.2 (by decide)
    show fill p (.char '"' :: (ps.flatMap Part.text ++ [.char '"'] ++ s)) =
      .char '"' :: (ps.flatMap (Part.value p) ++ [.char '"'] ++ fill p s)
    rw [fill_char p fun he => absurd he (by decide), List.append_assoc, List.singleton_append,
      fill_parts p h hq, fill_char p fun he => absurd he (by decide), List.append_assoc,
      List.singleton_append]

/-! ### Splitting -/

theorem fits_parts {p : Params} (hp : p.Fit) {ps : List Part} (h : PartsSound ps) :
    Fits (ps.flatMap (Part.value p)) := by
  induction ps with
  | nil => exact ⟨List.not_mem_nil, List.not_mem_nil⟩
  | cons part ps ih =>
    simp only [Fits, List.flatMap_cons, List.mem_append, not_or]
    cases part with
    | char c =>
      obtain ⟨hq, hn, -, h⟩ := h
      obtain ⟨ihq, ihn⟩ := ih h
      have hc : ∀ {x : CodePoint}, c ≠ x → x ∉ (Part.char c).value p := by
        intro x hx hm
        exact hx (List.mem_singleton.1 hm).symm
      exact ⟨⟨hc hq, ihq⟩, hc hn, ihn⟩
    | slot slot =>
      obtain ⟨ihq, ihn⟩ := ih h.2
      exact ⟨⟨(hp slot).1, ihq⟩, (hp slot).2, ihn⟩

/-- A sound word, filled in with files that fit, is one word of the command line. -/
theorem words_filled {p : Params} (hp : p.Fit) {w : Word} (h : w.IsSound) {s : Text}
    (hs : CommandLine.StopsWord s) :
    CommandLine.words (w.filled p ++ s) = w.value p :: CommandLine.words s := by
  cases w with
  | bare t =>
    obtain ⟨hq, ht⟩ := h
    cases t with
    | nil => exact absurd hq Bool.false_ne_true
    | cons c u =>
      rw [List.head?_cons, Option.any_some, Bool.not_eq_true'] at hq
      exact CommandLine.words_bare hq (fun x hx => (ht x hx).1) hs
  | single t =>
    have hq : .char '\'' ∉ t := fun hm => (h _ hm).1 rfl
    have hn : .char '\n' ∉ t := fun hm => (h _ hm).2.1 rfl
    show CommandLine.words (.char '\'' :: (t ++ [.char '\''] ++ s)) = _
    rw [List.append_assoc, List.singleton_append, CommandLine.words_quoted (by decide) hq hn]
    rfl
  | double ps =>
    obtain ⟨hq, hn⟩ := fits_parts hp h
    show CommandLine.words (.char '"' :: (ps.flatMap (Part.value p) ++ [.char '"'] ++ s)) = _
    rw [List.append_assoc, List.singleton_append, CommandLine.words_quoted (by decide) hq hn]
    rfl

theorem words_spaces (n : Nat) (s : Text) :
    CommandLine.words (List.replicate n (.char ' ') ++ s) = CommandLine.words s := by
  induction n with
  | zero => rfl
  | succ n ih => rw [List.replicate_succ, List.cons_append, CommandLine.words_blank (by decide), ih]

/-- Include directories are one word each. -/
theorem words_includeFlags {dirs : List Text} (h : ∀ d ∈ dirs, Fits d) (s : Text) :
    CommandLine.words (Native.includeFlags dirs ++ s) =
      dirs.map includeFlag ++ CommandLine.words s := by
  induction dirs with
  | nil => rfl
  | cons d dirs ih =>
    obtain ⟨hq, hn⟩ := h d (List.mem_cons_self ..)
    have hq' : .char '"' ∉ includeFlag d := fun hm => (List.mem_append.1 hm).elim (by decide) hq
    have hn' : .char '\n' ∉ includeFlag d := fun hm => (List.mem_append.1 hm).elim (by decide) hn
    have hflags : Native.includeFlags (d :: dirs) ++ s = .char ' ' :: .char '"' ::
        (includeFlag d ++ .char '"' :: (Native.includeFlags dirs ++ s)) := by
      simp [Native.includeFlags, includeFlag, Text.ofString, Text.ofChars]
    rw [hflags, CommandLine.words_blank (by decide), CommandLine.words_quoted (by decide) hq' hn',
      ih fun x hx => h x (List.mem_cons_of_mem _ hx), List.map_cons, List.cons_append]

theorem stopsWord_fill_rowText (p : Params) (es : List (Nat × Item)) :
    CommandLine.StopsWord (fill p (rowText es)) := by
  cases es with
  | nil =>
    show CommandLine.StopsWord (fill p [])
    rw [fill_nil]
    rfl
  | cons e es =>
    have hr : rowText (e :: es) =
        .char ' ' :: (List.replicate e.1 (.char ' ') ++ e.2.text ++ rowText es) := rfl
    rw [hr, fill_char p fun he => absurd he (by decide), CommandLine.stopsWord_cons]
    decide

/-- A row of sound items gives the words of each of them, in order. -/
theorem words_rowText {p : Params} (hp : p.Fit) {dirs : List Text} (hd : ∀ d ∈ dirs, Fits d)
    (hi : p.includes = Native.includeFlags dirs) {es : List (Nat × Item)}
    (h : ∀ e ∈ es, e.2.IsSound) :
    CommandLine.words (fill p (rowText es)) = es.flatMap (·.2.words p dirs) := by
  induction es with
  | nil =>
    show CommandLine.words (fill p []) = []
    rw [fill_nil, CommandLine.words_nil]
  | cons e es ih =>
    have ih := ih fun x hx => h x (List.mem_cons_of_mem _ hx)
    have hblank : CodePoint.char '%' ∉ List.replicate (e.1 + 1) (CodePoint.char ' ') :=
      fun hm => absurd (List.eq_of_mem_replicate hm) (by decide)
    have hr : rowText (e :: es) =
        List.replicate (e.1 + 1) (.char ' ') ++ (e.2.text ++ rowText es) := by
      rw [rowText, List.flatMap_cons, List.append_assoc]
      rfl
    rw [hr, fill_append p hblank, words_spaces, List.flatMap_cons]
    obtain ⟨n, item⟩ := e
    cases item with
    | word w =>
      have hw : w.IsSound := h (n, .word w) (List.mem_cons_self ..)
      show CommandLine.words (fill p (w.text ++ rowText es)) = _
      rw [fill_wordText p hw, words_filled hp hw (stopsWord_fill_rowText p es), ih]
      rfl
    | includes =>
      have hw : ∀ c ∈ ("includes" : Text), Text.isWordChar c = true := by decide
      have hv : p.value "includes" = p.includes := rfl
      show CommandLine.words (fill p (.char '%' :: ("includes" ++ rowText es))) = _
      rw [fill_word p (by decide) hw (endsWord_rowText es), hv, hi, words_includeFlags hd, ih]
      rfl

/-- **Files keep to their words.** A sound pattern, filled in with files and include
directories that fit within double quotes, splits into what its words stand for. -/
theorem words_fill {p : Params} (hp : p.Fit) {dirs : List Text} (hd : ∀ d ∈ dirs, Fits d)
    (hi : p.includes = Native.includeFlags dirs) {pat : Pattern} (h : pat.IsSound) :
    CommandLine.words (fill p pat.text) =
      pat.first.value p :: pat.rest.flatMap (·.2.words p dirs) := by
  rw [Pattern.text, fill_wordText p h.1, words_filled hp h.1 (stopsWord_fill_rowText p pat.rest),
    words_rowText hp hd hi h.2]

/-- The command of a sound pattern. -/
theorem command_eq {p : Params} (hp : p.Fit) {dirs : List Text} (hd : ∀ d ∈ dirs, Fits d)
    (hi : p.includes = Native.includeFlags dirs) {pat : Pattern} (h : pat.IsSound) :
    (Recipe.mk pat.text).command p =
      .ok (Path.ofText (pat.first.value p), pat.rest.flatMap (·.2.words p dirs)) := by
  rw [command, expand_eq_fill, CommandLine.split, words_fill hp hd hi h]

end FirmwareBuild.Recipe
