/-!
# TOML tables

A document builds one table out of assignments and headers.  How a table came about decides what
may still be added to it: a key is given a value once, a table is declared by a header once, and
dotted keys extend only those tables that dotted keys have made.
-/

namespace StepFlow.Toml

/-- How a table came about. -/
inductive Origin where
  /-- Between braces; nothing can be added. -/
  | inline
  /-- By a dotted key. -/
  | dotted
  /-- By a header of its own. -/
  | declared
  /-- By a header of a table inside it. -/
  | implied
  deriving DecidableEq, Repr

/-- A value.  Numbers, booleans and dates are left out: no setting has them. -/
inductive Node where
  | string (text : String)
  | array (items : List Node)
  | table (origin : Origin) (entries : List (String × Node))
  deriving Repr

/-- The entries of a table, in order. -/
abbrev Entries := List (String × Node)

namespace Entries

def find? (entries : Entries) (key : String) : Option Node :=
  (List.find? (fun entry => entry.1 == key) entries).map Prod.snd

/-- Puts another value under a key that is present. -/
def replace (entries : Entries) (key : String) (node : Node) : Entries :=
  entries.map fun entry => if entry.1 == key then (key, node) else entry

/-- Gives a dotted key a value. -/
def assign? (entries : Entries) (value : Node) : List String → Option Entries
  | [] => none
  | [key] =>
      match entries.find? key with
      | none => some (entries ++ [(key, value)])
      | some _ => none
  | key :: path =>
      match entries.find? key with
      | none =>
          (assign? [] value path).map fun inner => entries ++ [(key, .table .dotted inner)]
      | some (.table .dotted inner) =>
          (assign? inner value path).map fun inner => entries.replace key (.table .dotted inner)
      | some _ => none

/-- Declares the table that a header names. -/
def declare? (entries : Entries) : List String → Option Entries
  | [] => none
  | [key] =>
      match entries.find? key with
      | none => some (entries ++ [(key, .table .declared [])])
      | some (.table .implied inner) => some (entries.replace key (.table .declared inner))
      | some _ => none
  | key :: path =>
      match entries.find? key with
      | none => (declare? [] path).map fun inner => entries ++ [(key, .table .implied inner)]
      | some (.table .inline _) => none
      | some (.table origin inner) =>
          (declare? inner path).map fun inner => entries.replace key (.table origin inner)
      | some _ => none

/-- Gives a dotted key a value in the table under the header `header`. -/
def assignUnder? (entries : Entries) (path : List String) (value : Node) :
    (header : List String) → Option Entries
  | [] => entries.assign? value path
  | key :: header =>
      match entries.find? key with
      | some (.table origin inner) =>
          (assignUnder? inner path value header).map fun inner =>
            entries.replace key (.table origin inner)
      | _ => none

end Entries

end StepFlow.Toml
