import FirmwareBuild.Setting

/-! A TOML document in the making.

A document is a sequence of statements, and some of them exclude others: a table
is opened once, a value is given once, and a value written in brackets or braces
is not extended. The draft holds the tables so far, the keys that are no longer
free to be opened, and the keys of closed values. -/
namespace FirmwareBuild.Toml

abbrev Key := List Text

abbrev Table := List (Text × Setting)

/-- `opened` are the tables that no further header may open. `dotted` are tables that
dotted keys of the present section made: they count as opened from the next header
on. `closed` are the keys of values in brackets or braces. -/
structure Draft where
  table : Table
  opened : List Key
  dotted : List Key
  closed : List Key
deriving Repr, Inhabited

def Draft.empty : Draft := ⟨[], [], [], []⟩

/-- Changes the table at a key, making tables on the way. Where a key names a list of
tables and `last` holds, its last table is meant. -/
def changeAt (last : Bool) (change : Table → Option Table) : Key → Table → Option Table
  | [], t => change t
  | k :: rest, t =>
    match Entries.get? k t with
    | none => (changeAt last change rest []).map fun u => Entries.put k (.table u) t
    | some (.table u) => (changeAt last change rest u).map fun u => Entries.put k (.table u) t
    | some (.list items) =>
      if last then
        match items.getLast? with
        | some (.table u) => (changeAt last change rest u).map fun u =>
            Entries.put k (.list (items.dropLast ++ [.table u])) t
        | _ => none
      else none
    | some _ => none

/-- Gives a value to a key that has none. -/
def assign (key : Text) (value : Setting) (t : Table) : Option Table :=
  if Entries.contains key t then none else some (t ++ [(key, value)])

/-- Appends an empty table to the list of tables at a key, which may be missing. -/
def appendTable (key : Text) (t : Table) : Option Table :=
  match Entries.get? key t with
  | none => some (t ++ [(key, .list [.table []])])
  | some (.list items) => some (Entries.put key (.list (items ++ [.table []])) t)
  | some _ => none

/-- Whether a key lies at or below one of the closed values. -/
def isClosed (closed : List Key) (key : Key) : Bool := closed.any fun c => c.isPrefixOf key

/-- A value that is written in brackets or braces. -/
def isCompound : Setting → Bool
  | .list _ | .table _ => true
  | _ => false

/-- The non-empty proper beginnings of a key. -/
def properBeginnings (key : Key) : List Key :=
  (List.range (key.length - 1)).map fun n => key.take (n + 1)

/-- A header begins a section: the tables that dotted keys made are opened now. -/
def Draft.beginSection (d : Draft) : Draft :=
  { d with opened := d.opened ++ d.dotted, dotted := [] }

/-- The header of a table. -/
def Draft.openTable (d : Draft) (key : Key) : Option Draft :=
  let d := d.beginSection
  if d.opened.contains key || isClosed d.closed key then none
  else (changeAt true some key d.table).map fun t =>
    { d with table := t, opened := d.opened ++ [key] }

/-- The header of a further table of a list: what was said about the tables below the
key concerned the table before it. -/
def Draft.openItem (d : Draft) (key : Key) : Option Draft :=
  let d := d.beginSection
  if isClosed d.closed key then none
  else (changeAt true (appendTable (key.getLast?.getD [])) key.dropLast d.table).map fun t =>
    { d with
      table := t
      opened := (d.opened.filter fun k => !key.isPrefixOf k) ++ [key]
      closed := d.closed.filter fun k => !key.isPrefixOf k }

/-- A value for a key within the section with the given header. -/
def Draft.give (d : Draft) (header key : Key) (value : Setting) : Option Draft :=
  let made := (properBeginnings key).map (header ++ ·)
  let target := header ++ key.dropLast
  if made.any d.opened.contains || isClosed d.closed target then none
  else (changeAt true (assign (key.getLast?.getD []) value) target d.table).map fun t =>
    { d with
      table := t
      dotted := d.dotted ++ made
      closed := if isCompound value then d.closed ++ [header ++ key] else d.closed }

/-- A value for a key within braces; `closed` are the compound values given before. -/
def giveInline (t : Table) (closed : List Key) (key : Key) (value : Setting) :
    Option (Table × List Key) :=
  if isClosed closed key then none
  else (changeAt false (assign (key.getLast?.getD []) value) key.dropLast t).map fun t =>
    (t, if isCompound value then closed ++ [key] else closed)

end FirmwareBuild.Toml
