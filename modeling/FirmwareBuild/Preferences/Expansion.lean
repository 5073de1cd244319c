import FirmwareBuild.Entries
import FirmwareBuild.Text.Blank
import FirmwareBuild.Text.Cut

/-! Expansion of placeholders.

The value of a preference may name other preferences in braces. One round of
expansion replaces each name by the value that it had before the round and then
collapses doubled braces; `expand` takes rounds until nothing changes, ten at
most, since values that refer to each other need never settle.

`pieces` is the decomposition behind a round: a placeholder is an opening brace,
one code point or more that are not blank, the first of them of any other kind
and no further one a closing brace, and a closing brace. `text_pieces` says that
the decomposition loses nothing. -/
namespace FirmwareBuild.Preferences

/-- A code point that stands for itself, or a placeholder. -/
inductive Piece
  | char (c : CodePoint)
  | placeholder (name : Text)
deriving Repr, DecidableEq

def Piece.text : Piece → Text
  | .char c => [c]
  | .placeholder name => .char '{' :: name ++ [.char '}']

/-- The rest of a name up to the closing brace, and what follows the brace. -/
def nameTail? : Text → Option (Text × Text)
  | [] => none
  | c :: rest =>
    if c = '}' then some ([], rest)
    else if Text.isBlank c then none
    else (nameTail? rest).map fun p => (c :: p.1, p.2)

/-- A name and what follows its closing brace, from behind the opening brace. -/
def name? : Text → Option (Text × Text)
  | [] => none
  | c :: rest => if Text.isBlank c then none else (nameTail? rest).map fun p => (c :: p.1, p.2)

theorem nameTail?_eq {s name rest : Text} (h : nameTail? s = some (name, rest)) :
    s = name ++ .char '}' :: rest := by
  induction s generalizing name with
  | nil => simp [nameTail?] at h
  | cons c cs ih =>
    simp only [nameTail?] at h
    split at h
    · next hc =>
      simp only [Option.some.injEq, Prod.mk.injEq] at h
      obtain ⟨rfl, rfl⟩ := h
      simp [hc]
    · split at h
      · simp at h
      · obtain ⟨⟨n, r⟩, hp, he⟩ := Option.map_eq_some_iff.1 h
        simp only [Prod.mk.injEq] at he
        obtain ⟨rfl, rfl⟩ := he
        rw [ih hp, List.cons_append]

theorem name?_eq {s name rest : Text} (h : name? s = some (name, rest)) :
    s = name ++ .char '}' :: rest := by
  cases s with
  | nil => simp [name?] at h
  | cons c cs =>
    simp only [name?] at h
    split at h
    · simp at h
    · obtain ⟨⟨n, r⟩, hp, he⟩ := Option.map_eq_some_iff.1 h
      simp only [Prod.mk.injEq] at he
      obtain ⟨rfl, rfl⟩ := he
      rw [nameTail?_eq hp, List.cons_append]

theorem length_lt_of_name? {s name rest : Text} (h : name? s = some (name, rest)) :
    rest.length < s.length := by
  have := congrArg List.length (name?_eq h)
  simp only [List.length_append, List.length_cons] at this
  omega

/-- The placeholders of a text from left to right and the code points between them. -/
def pieces : Text → List Piece
  | [] => []
  | c :: rest =>
    if c = '{' then
      match h : name? rest with
      | some (name, after) =>
        have := length_lt_of_name? h
        .placeholder name :: pieces after
      | none => .char c :: pieces rest
    else .char c :: pieces rest
termination_by s => s.length

/-- The pieces make up the text. -/
theorem text_pieces (s : Text) : (pieces s).flatMap Piece.text = s := by
  fun_induction pieces s with
  | case1 => rfl
  | case2 rest name after h _ ih => simp [Piece.text, ih, name?_eq h]
  | case3 rest h ih => simp [Piece.text, ih]
  | case4 c rest h ih => simp [Piece.text, ih]

/-- A piece with its placeholder replaced, if its name has a value. -/
def Piece.resolve (values : List (Text × Text)) : Piece → Text
  | .char c => [c]
  | .placeholder name =>
    match Entries.get? name values with
    | some v => v
    | none => (Piece.placeholder name).text

/-- A text with its placeholders replaced. -/
def substitute (values : List (Text × Text)) (s : Text) : Text :=
  (pieces s).flatMap (Piece.resolve values)

/-- What a round makes of one value. -/
def resolve (values : List (Text × Text)) (s : Text) : Text :=
  Text.collapse '}' (Text.collapse '{' (substitute values s))

/-- One round of expansion. -/
def round (values : List (Text × Text)) : List (Text × Text) :=
  values.map fun e => (e.1, resolve values e.2)

/-- Rounds until nothing changes, `n` at most. -/
def settle : (n : Nat) → List (Text × Text) → List (Text × Text)
  | 0, values => values
  | n + 1, values =>
    let next := round values
    if next = values then values else settle n next

/-- The number of rounds after which values are left as they are. -/
def maxRounds : Nat := 10

def expand (values : List (Text × Text)) : List (Text × Text) := settle maxRounds values

theorem keys_round (values : List (Text × Text)) :
    Entries.keys (round values) = Entries.keys values := by
  simp [Entries.keys, round, Function.comp_def]

theorem keys_settle (n : Nat) (values : List (Text × Text)) :
    Entries.keys (settle n values) = Entries.keys values := by
  induction n generalizing values with
  | zero => rfl
  | succ n ih =>
    rw [settle]
    split
    · rfl
    · rw [ih, keys_round]

/-- Expansion keeps the keys and their order. -/
theorem keys_expand (values : List (Text × Text)) :
    Entries.keys (expand values) = Entries.keys values := keys_settle maxRounds values

end FirmwareBuild.Preferences
