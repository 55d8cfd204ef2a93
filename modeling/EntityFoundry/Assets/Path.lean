import EntityFoundry.Bytes
/-! Paths as text with `/` between names. An absolute path replaces what it is joined to; two paths
are equal when they name the same steps. -/
namespace EntityFoundry.Path

def isAbsolute (p : String) : Bool := p.toList.head? = some '/'

def join (root file : String) : String :=
  if isAbsolute file then file
  else if root.isEmpty || root.toList.getLast? = some '/' then root ++ file
  else root ++ "/" ++ file

def pieces (p : String) : List String := (p.toList.splitOn '/').map String.ofList

inductive Step
  | root
  | here
  | up
  | name (s : String)
  deriving DecidableEq, Repr

def steps (p : String) : List Step :=
  let step (s : String) : Step := if s = "." then .here else if s = ".." then .up else .name s
  let all := ((pieces p).filter (! ·.isEmpty)).map step
  if isAbsolute p then .root :: all.filter (· ≠ .here)
  else match all with
    | .here :: rest => .here :: rest.filter (· ≠ .here)
    | all => all.filter (· ≠ .here)

def same (p q : String) : Bool := steps p == steps q

def upToStep : List String → List String
  | [] => []
  | ["."] => ["."]
  | piece :: front => if piece.isEmpty || piece = "." then upToStep front else piece :: front

def parent? (p : String) : Option String :=
  match upToStep (pieces p).reverse with
  | [] => none
  | _ :: front =>
    match upToStep front with
    | [] => some (if isAbsolute p then "/" else "")
    | front => some ("/".intercalate front.reverse)

end EntityFoundry.Path
