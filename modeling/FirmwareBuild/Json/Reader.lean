import FirmwareBuild.Json.Token

/-! Reading JSON.

A machine with a stack takes one word after the other: the frames of the stack are
the lists and objects that are still open, and the expectation says what may come
next. A text is accepted if the machine ends with one value and no open frame.
Words and values are read together, so that the first fault in a text counts. -/
namespace FirmwareBuild.Json

/-- A list or object that is still open; what it holds so far is kept last first. -/
inductive Frame
  | list (items : List Json)
  | object (fields : List (Text × Json)) (key : Text)
deriving Repr

/-- What may come next. An object between two fields is described here and not by a
frame, for it has no current key. -/
inductive Expect
  | value
  | itemOrEnd
  | keyOrEnd
  | key (fields : List (Text × Json))
  | colon (fields : List (Text × Json)) (key : Text)
  | after (v : Json)
deriving Repr

structure Machine where
  frames : List Frame
  expect : Expect
deriving Repr

/-- The machine behind a bracket that opens a list or an object. -/
def openFrame (frames : List Frame) (m : Machine) : Except ReadError Machine :=
  if frames.length < depthLimit then .ok m else .error .tooDeep

/-- A word where a value is expected. -/
def startValue (frames : List Frame) : Token → Except ReadError Machine
  | .openList => openFrame frames ⟨.list [] :: frames, .itemOrEnd⟩
  | .openObject => openFrame frames ⟨frames, .keyOrEnd⟩
  | .text s => .ok ⟨frames, .after (.text s)⟩
  | .scalar v => .ok ⟨frames, .after v⟩
  | .longInteger digits => .error (.longInteger digits)
  | _ => .error .malformed

def Machine.step (m : Machine) (t : Token) : Except ReadError Machine :=
  match m.expect, t, m.frames with
  | .itemOrEnd, .closeList, .list items :: frames => .ok ⟨frames, .after (.list items.reverse)⟩
  | .keyOrEnd, .closeObject, frames => .ok ⟨frames, .after (.object [])⟩
  | .keyOrEnd, .text s, frames => .ok ⟨frames, .colon [] s⟩
  | .key fields, .text s, frames => .ok ⟨frames, .colon fields s⟩
  | .colon fields key, .colon, frames => .ok ⟨.object fields key :: frames, .value⟩
  | .after v, .comma, .list items :: frames => .ok ⟨.list (v :: items) :: frames, .value⟩
  | .after v, .closeList, .list items :: frames =>
    .ok ⟨frames, .after (.list (v :: items).reverse)⟩
  | .after v, .comma, .object fields key :: frames => .ok ⟨frames, .key ((key, v) :: fields)⟩
  | .after v, .closeObject, .object fields key :: frames =>
    .ok ⟨frames, .after (ofPairs ((key, v) :: fields).reverse)⟩
  | .value, t, frames | .itemOrEnd, t, frames => startValue frames t
  | _, _, _ => .error .malformed

def Machine.run (m : Machine) (ts : List Token) : Except ReadError Machine :=
  ts.foldlM Machine.step m

theorem Machine.run_append (m : Machine) (ts us : List Token) :
    m.run (ts ++ us) = m.run ts >>= fun m => m.run us := List.foldlM_append

def Machine.start : Machine := ⟨[], .value⟩

/-- The value that a finished machine holds. -/
def Machine.result : Machine → Except ReadError Json
  | ⟨[], .after v⟩ => .ok v
  | _ => .error .malformed

/-- The value of a sequence of words. -/
def ofTokens (ts : List Token) : Except ReadError Json := Machine.start.run ts >>= Machine.result

/-! ### Texts -/

/-- Where the reader of a text stands: within a word and within a value. -/
structure Reader where
  mode : Mode
  machine : Machine
deriving Repr

def Reader.step (r : Reader) (c : CodePoint) : Except ReadError Reader := do
  let (ts, mode) ← ReadError.required (Json.step r.mode c)
  return ⟨mode, ← r.machine.run ts⟩

def Reader.run (r : Reader) (s : Text) : Except ReadError Reader := s.foldlM Reader.step r

theorem Reader.run_append (r : Reader) (s t : Text) :
    r.run (s ++ t) = r.run s >>= fun r => r.run t := List.foldlM_append

def Reader.start : Reader := ⟨.between, .start⟩

/-- The value of the text that has been read. -/
def Reader.result (r : Reader) : Except ReadError Json := do
  let ts ← ReadError.required (finish? r.mode)
  (← r.machine.run ts).result

/-- The value that a text denotes. -/
def parse (s : Text) : Except ReadError Json := Reader.start.run s >>= Reader.result

end FirmwareBuild.Json
