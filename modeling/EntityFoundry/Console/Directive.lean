import EntityFoundry.Console.Pattern
import EntityFoundry.Journal
import EntityFoundry.Text.Utf8
/-! Directives of a filter: which notices are shown, by where they come from and what fields they
have. A piece of a filter names a level, a target, a target and its level, or after the target the
span in brackets in which it holds, or a field in braces that a notice must have. -/
namespace EntityFoundry.Console

structure Directive where
  target : String
  field : Option String
  detail : Nat
  deriving DecidableEq, Repr

inductive DirectiveFault
  | form
  | level
  | value (fault : PatternFault)
  deriving DecidableEq, Repr

def DirectiveFault.message : DirectiveFault → String
  | .form => "invalid filter directive"
  | .level => "error parsing level filter: expected one of \"off\", \"error\", \"warn\", \"info\", " ++
      "\"debug\", \"trace\", or a number 0-5"
  | .value fault => "invalid field filter: " ++ fault.message

def fullDetail : Nat := 5

def numbered? (word : String) : Option Nat :=
  let digits := match word.toList with
    | '+' :: digits => digits
    | digits => digits
  if digits.isEmpty || !digits.all (·.isDigit) then none
  else
    let n := digits.foldl (fun n c => 10 * n + (c.toNat - '0'.toNat)) 0
    if n ≤ fullDetail then some n else none

def detail? (word : String) : Option Nat :=
  match word.toLower with
  | "off" => some 0
  | "error" => some 1
  | "warn" => some 2
  | "info" => some 3
  | "debug" => some 4
  | "trace" => some fullDetail
  | _ => numbered? word

namespace Directive

/-- A piece as it stands, and its characters without the blanks around them. Marks are looked for in
`inner`; words are cut at the same bytes out of `text`. -/
structure Piece where
  text : List Char
  inner : List Char

namespace Piece

def ofString (s : String) : Piece :=
  let trailing := s.toList.dropWhile Text.isBlank
  ⟨s.toList, (trailing.reverse.dropWhile Text.isBlank).reverse⟩

def find (p : Piece) (marks : List Char) (start : Nat) : Nat :=
  start + ((p.inner.drop start).takeWhile fun c => !marks.contains c).length

def bytesBefore (p : Piece) (position : Nat) : Nat := Text.Utf8.size (p.inner.take position)

def dropTo (p : Piece) (start : Nat) : List Char := Text.Utf8.drop (p.bytesBefore start) p.text

def cut (p : Piece) (start stop : Nat) : List Char :=
  Text.Utf8.take (p.bytesBefore stop - p.bytesBefore start) (p.dropTo start)

def level (p : Piece) (start : Nat) : Except DirectiveFault Nat :=
  match p.dropTo start with
  | [] => .ok fullDetail
  | word =>
    match detail? (String.ofList word) with
    | some n => .ok n
    | none => .error .level

def ending (p : Piece) (start : Nat) : Except DirectiveFault Nat :=
  match p.inner[start]? with
  | none => .ok fullDetail
  | some '=' => p.level (start + 1)
  | some _ => .error .form

end Piece

def startsTarget (c : Char) : Bool :=
  c = '-' || c = ':' || c = '_' || Text.isAlphabetic c || Text.isNumeric c

/-- Reads on behind an opening bracket at `mark`. A directive for a span, or for the value of a
field, is none: no notice is given inside a span. -/
def readBracket (p : Piece) (mark : Nat) : Except DirectiveFault (Option Directive) := do
  let stop := p.find [']', '\x7b'] (mark + 1)
  match p.inner[stop]? with
  | none => throw .form
  | some ']' =>
    let _ ← p.ending (stop + 1)
    return none
  | some _ =>
    let close := p.find ['\x7d'] (stop + 1)
    if close = stop + 1 || p.inner.length ≤ close then throw .form
    let field := p.cut (stop + 1) close
    let name := field.takeWhile (· ≠ '=')
    let value := ((field.dropWhile (· ≠ '=')).drop 1).takeWhile (· ≠ '=')
    if let some fault := Pattern.valueFault? value then throw (.value fault)
    if p.inner[close + 1]? ≠ some ']' then throw .form
    let detail ← p.ending (close + 2)
    if stop ≠ mark + 1 || name ≠ field then return none
    return some ⟨String.ofList (p.cut 0 mark), some (String.ofList name), detail⟩

def read (piece : String) : Except DirectiveFault (Option Directive) := do
  let p := Piece.ofString piece
  match p.inner with
  | [] => throw .form
  | c :: _ =>
    if c ≠ '[' && !startsTarget c then throw .form
    let mark := p.find ['=', '['] 0
    match p.inner[mark]? with
    | none =>
      match detail? piece with
      | some n => return some ⟨"", none, n⟩
      | none => return some ⟨piece, none, fullDetail⟩
    | some '=' => return some ⟨String.ofList (p.cut 0 mark), none, ← p.level (mark + 1)⟩
    | some _ => readBracket p mark

def fits (d : Directive) (origin : String) (fields : List String) : Bool :=
  d.target.toList.isPrefixOf origin.toList && d.field.all fields.contains

def outranks (d e : Directive) : Bool :=
  if d.target.utf8ByteSize ≠ e.target.utf8ByteSize then
    decide (e.target.utf8ByteSize < d.target.utf8ByteSize)
  else
    match d.field, e.field with
    | some x, some y => decide (y < x)
    | some _, none => true
    | none, _ => false

def put (all : List Directive) (d : Directive) : List Directive :=
  d :: all.filter fun e => decide ((e.target, e.field) ≠ (d.target, d.field))

def leading? (all : List Directive) : Option Directive :=
  all.foldl (fun best d =>
    match best with
    | some b => if d.outranks b then some d else best
    | none => some d) none

end Directive
end EntityFoundry.Console
