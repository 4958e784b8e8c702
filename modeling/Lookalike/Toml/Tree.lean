-- The tree of a TOML document while it grows. A table remembers how it came
-- about, since that decides what may still be added to it.
import Lookalike.Settings.Value

namespace Lookalike.Toml

/-- How a table came about: by its own header, by the header of a table inside it, or by a dotted
key. -/
inductive Origin where
  | header
  | inside
  | dotted
  deriving DecidableEq

/-- What a key holds: a value that is complete, a table that may grow, or a list of tables of which
the last may grow. -/
inductive Node where
  | value (value : Setting)
  | table (origin : Origin) (entries : List (String × Node))
  | tables (rows : List (List (String × Node)))

/-- The entries of a table, in order. -/
abbrev Entries := List (String × Node)

/-! ## Growing -/

/-- Change the table at a path; tables on the way that are missing are made. A dotted key does not
reach into a table with a header of its own. -/
def alterTable (dotted : Bool) (f : Origin → Entries → Option Entries) :
    List String → Origin → Entries → Option Entries
  | [], origin, es => f origin es
  | k :: ks, _, es =>
    let fresh : Origin := if dotted then .dotted else .inside
    match Ordered.get? k es with
    | none => do
      let new ← alterTable dotted f ks fresh []
      return Ordered.put k (.table fresh new) es
    | some (.table origin inner) =>
      if dotted && origin = .header then none
      else do
        let new ← alterTable dotted f ks origin inner
        return Ordered.put k (.table origin new) es
    | some (.tables rows) =>
      match rows.reverse with
      | [] => none
      | last :: back => do
        let new ← alterTable dotted f ks .header last
        return Ordered.put k (.tables (new :: back).reverse) es
    | some (.value _) => none

/-- Give a key its value. A key is given once, and a dotted key and a plain one do not share a
table. -/
def assign (path : List String) (key : String) (v : Setting) (origin : Origin) (es : Entries) :
    Option Entries :=
  alterTable true (fun origin es =>
    if (origin = .dotted) = path.isEmpty then none
    else
      match Ordered.get? key es with
      | some _ => none
      | none => some (es ++ [(key, .value v)])) path origin es

/-- Give a key its value in the table of a header. -/
def assignBelow (header path : List String) (key : String) (v : Setting) (es : Entries) :
    Option Entries :=
  alterTable false (assign path key v) header .header es

/-- The header of a table: a new one, or one that so far was only there for what is inside it. -/
def openTable (path : List String) (key : String) (es : Entries) : Option Entries :=
  alterTable false (fun _ es =>
    match Ordered.get? key es with
    | none => some (es ++ [(key, .table .header [])])
    | some (.table .inside inner) => some (Ordered.put key (.table .header inner) es)
    | some _ => none) path .header es

/-- The header of one more table in a list. -/
def openRow (path : List String) (key : String) (es : Entries) : Option Entries :=
  alterTable false (fun _ es =>
    match Ordered.get? key es with
    | none => some (es ++ [(key, .tables [[]])])
    | some (.tables rows) => some (Ordered.put key (.tables (rows ++ [[]])) es)
    | some _ => none) path .header es

/-! ## The finished tree -/

mutual

def Node.setting : Node → Setting
  | .value s => s
  | .table _ es => .table (members es)
  | .tables rows => .list (rowSettings rows)

def members : Entries → List (String × Setting)
  | [] => []
  | (k, n) :: rest => (k, n.setting) :: members rest

/-- The tables of a list. -/
def rowSettings : List Entries → List Setting
  | [] => []
  | es :: rest => .table (members es) :: rowSettings rest

end

end Lookalike.Toml
