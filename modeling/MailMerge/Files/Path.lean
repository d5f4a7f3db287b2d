/-
Paths. A path is a root, if it has one, and the names below it; empty names and single dots are
dropped, double dots are kept. Whether a path lies inside a directory is told from the two alone:
double dots are taken back against the names in front of them, and what is left must go on from the
directory.
-/
namespace MailMerge.Files

/-- Where a path starts: nowhere in particular, or at a root. Exactly two slashes are a root of
their own. -/
inductive Root
  | relative
  | slash
  | twoSlashes
  deriving DecidableEq, Repr

/-- The slashes in front of the names. -/
def Root.shown : Root → String
  | relative => ""
  | slash => "/"
  | twoSlashes => "//"

/-- A path. -/
structure Path where
  root : Root
  names : List String
  deriving DecidableEq, Repr

/-- The pieces of a text between slashes. -/
def splitSlashes (cs : List Char) : List (List Char) :=
  cs.foldr
    (fun c pieces =>
      if c = '/' then [] :: pieces
      else
        match pieces with
        | [] => [[c]]
        | piece :: rest => (c :: piece) :: rest)
    [[]]

namespace Path

/-- The path that a text spells. -/
def ofString (s : String) : Path where
  root :=
    match (s.toList.takeWhile (· = '/')).length with
    | 0 => .relative
    | 2 => .twoSlashes
    | _ => .slash
  names := ((splitSlashes s.toList).map String.ofList).filter fun name => name ≠ "" ∧ name ≠ "."

/-- The text of a path. -/
def shown (p : Path) : String :=
  match p.root, p.names with
  | .relative, [] => "."
  | root, names => root.shown ++ String.intercalate "/" names

/-- A path below another one; a path with a root stays as it is. -/
def join (p q : Path) : Path :=
  if q.root = .relative then ⟨p.root, p.names ++ q.names⟩ else q

/-- The path without its last name. -/
def parent (p : Path) : Path :=
  { p with names := p.names.dropLast }

/-- The last name, or nothing. -/
def name (p : Path) : String :=
  p.names.getLastD ""

/-- A name cut in front of its last dot, unless that is its first or last character. -/
def splitName (name : List Char) : List Char × List Char :=
  let ending := (name.reverse.takeWhile (· ≠ '.')).reverse
  let stem := name.take (name.length - ending.length - 1)
  if ending = [] ∨ stem = [] ∨ ending = name then (name, []) else (stem, '.' :: ending)

/-- The last name without its suffix. -/
def stem (p : Path) : String :=
  String.ofList (splitName p.name.toList).1

/-- The suffix of the last name, with its dot. -/
def suffix (p : Path) : String :=
  String.ofList (splitName p.name.toList).2

/-! ## Inside a directory -/

/-- Adds a name below some names, the last one first. A double dot takes back the name in front of
it; where there is none it stays in a relative path, and a root is above itself. -/
def descend (root : Root) (above : List String) (name : String) : List String :=
  if name ≠ ".." then name :: above
  else
    match above with
    | [] => if root = .relative then [".."] else []
    | last :: rest => if last = ".." then ".." :: last :: rest else rest

/-- A path without double dots, except for those that lead up from where a relative path starts. -/
def resolved (p : Path) : Path :=
  { p with names := (p.names.foldl (descend p.root) []).reverse }

/-- Whether a path leads to a directory or to a place below it. -/
def IsInside (p directory : Path) : Prop :=
  p.resolved.root = directory.resolved.root ∧
    ∃ below, p.resolved.names = directory.resolved.names ++ below ∧ ".." ∉ below

end Path

end MailMerge.Files
