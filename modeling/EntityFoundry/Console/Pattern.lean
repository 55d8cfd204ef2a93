import EntityFoundry.Text.Alphabetic
import EntityFoundry.Text.Blank
import EntityFoundry.Text.Numeric
/-! Patterns that the value of a field may have to match, and which of them can be compiled. They are
compiled without tables of characters: what would need one is refused while patterns range over all
characters, and what could match half a character while they range over bytes. Nor may the parts of
a pattern nest too deep. -/
namespace EntityFoundry.Console

inductive PatternFault
  | unbuilt
  | wordBoundary
  deriving DecidableEq, Repr

def PatternFault.message : PatternFault → String
  | .unbuilt => "error building NFA"
  | .wordBoundary => "unsupported regex feature for DFAs: cannot build DFAs for regexes with " ++
      "Unicode word boundaries; switch to ASCII word boundaries, or heuristically enable Unicode " ++
      "word boundaries or use a different regex engine"

namespace Pattern

def rowDepth (parts : List Nat) : Nat :=
  let deepest := parts.foldl max 0
  if parts.length ≤ 1 then deepest else deepest + 1

def maxDepth : Nat := 250

structure Flags where
  caseless : Bool := false
  unicode : Bool := true
  spaced : Bool := false
  deriving DecidableEq, Repr

def passOver (f : Flags) (kind : Char → Bool) (comment : Bool) (count : Nat) :
    List Char → Nat × List Char
  | [] => (count, [])
  | c :: cs =>
    if comment then passOver f kind (c ≠ '\n') count cs
    else if kind c then passOver f kind false (count + 1) cs
    else if f.spaced && Text.isBlank c then passOver f kind false count cs
    else if f.spaced && c = '#' then passOver f kind true count cs
    else (count, c :: cs)

def skip (f : Flags) (cs : List Char) : List Char := (passOver f (fun _ => false) false 0 cs).2

inductive Atom
  | literal (code : Nat) (byte : Bool)
  | anchor
  | wordBoundary
  | family (negated : Bool)
  deriving DecidableEq, Repr

def Atom.allowed (f : Flags) : Atom → Bool
  | .literal code byte =>
    if f.unicode then !f.caseless else !byte || decide (code < 0x80)
  | .anchor | .wordBoundary => true
  | .family negated => !f.unicode && !negated

def Atom.allowedInside (f : Flags) : Atom → Bool
  | .literal code _ => if f.unicode then !f.caseless else decide (code < 0x80)
  | .family negated => !f.unicode && !negated
  | _ => false

def metas : List Char :=
  ['\\', '.', '+', '*', '?', '(', ')', '|', '[', ']', '\x7b', '\x7d', '^', '$', '#', '&', '-', '~']

def hexDigit? (c : Char) : Option Nat :=
  if c.isDigit then some (c.toNat - '0'.toNat)
  else if 'a' ≤ c && c ≤ 'f' then some (c.toNat - 'a'.toNat + 10)
  else if 'A' ≤ c && c ≤ 'F' then some (c.toNat - 'A'.toNat + 10)
  else none

def hex (f : Flags) : (digits value : Nat) → List Char → Option (Nat × List Char)
  | 0, value, cs => some (value, cs)
  | digits + 1, value, c :: cs =>
    match hexDigit? c with
    | some d => hex f digits (16 * value + d) (skip f cs)
    | none => none
  | _ + 1, _, [] => none

def hexLiteral (f : Flags) (digits : Nat) (cs : List Char) : Option (Atom × List Char) :=
  match hex f digits 0 (skip f cs) with
  | some (code, rest) => if code.isValidChar then some (.literal code (digits = 2), rest) else none
  | none => none

def escape (f : Flags) : List Char → Option (Atom × List Char)
  | [] => none
  | c :: cs =>
    let literal (code : Nat) := some (Atom.literal code false, cs)
    match c with
    | 'x' => hexLiteral f 2 cs
    | 'u' => hexLiteral f 4 cs
    | 'U' => hexLiteral f 8 cs
    | 'd' | 's' | 'w' => some (.family false, cs)
    | 'D' | 'S' | 'W' => some (.family true, cs)
    | 'a' => literal 0x7
    | 'f' => literal 0xc
    | 't' => literal 0x9
    | 'n' => literal 0xa
    | 'r' => literal 0xd
    | 'v' => literal 0xb
    | 'A' | 'z' => some (.anchor, cs)
    | 'b' | 'B' | '<' | '>' => some (.wordBoundary, cs)
    | c =>
      if metas.contains c || (decide (c.toNat < 0x80) && !c.isAlphanum) then literal c.toNat else none

/-! ## Brackets -/

def item (f : Flags) : List Char → Option (Atom × List Char)
  | [] => none
  | '\\' :: cs => escape f cs
  | c :: cs => some (.literal c.toNat false, cs)

def range (f : Flags) (cs : List Char) : Option (List Char) := do
  let (first, cs) ← item f cs
  let alone (cs : List Char) := if first.allowedInside f then some cs else none
  match skip f cs with
  | [] => none
  | '-' :: after =>
    match skip f after with
    | ']' :: _ | '-' :: _ => alone (skip f cs)
    | after =>
      let (last, rest) ← item f after
      match first, last with
      | .literal low _, .literal high _ =>
        if low ≤ high && first.allowedInside f && last.allowedInside f then some rest else none
      | _, _ => none
  | cs => alone cs

def opening (f : Flags) (cs : List Char) : Option (Nat × List Char) :=
  let (negated, cs) := match skip f cs with
    | '^' :: cs => (true, skip f cs)
    | cs => (false, cs)
  let (own, cs) := match cs with
    | '-' :: _ => passOver f (· = '-') false 0 cs
    | ']' :: cs => (1, skip f cs)
    | cs => (0, cs)
  if cs.isEmpty || (negated && !f.unicode) || (0 < own && f.unicode && f.caseless) then none
  else some (own, cs)

def classNames : List String :=
  ["alnum", "alpha", "ascii", "blank", "cntrl", "digit", "graph", "lower", "print", "punct", "space",
    "upper", "word", "xdigit"]

def named? (cs : List Char) : Option (Bool × List Char) :=
  match cs with
  | ':' :: cs =>
    let (negated, cs) := match cs with
      | '^' :: cs => (true, cs)
      | cs => (false, cs)
    match cs.dropWhile (· ≠ ':') with
    | ':' :: ']' :: rest =>
      if classNames.contains (String.ofList (cs.takeWhile (· ≠ ':'))) then some (negated, rest) else none
    | _ => none
  | _ => none

structure Class where
  items : List Nat
  before : Option Nat := none

def Class.add (c : Class) (depth : Nat) : Class := { c with items := depth :: c.items }

def Class.depth (c : Class) : Nat :=
  match c.before with
  | none => rowDepth c.items
  | some left => max left (rowDepth c.items) + 1

def brackets (f : Flags) (c : Class) (outer : List Class) :
    (fuel : Nat) → List Char → Option (Nat × List Char)
  | 0, _ => none
  | fuel + 1, cs =>
    match skip f cs with
    | [] => none
    | '[' :: cs =>
      match named? cs with
      | some (negated, rest) =>
        if if f.unicode then f.caseless else negated then none
        else brackets f (c.add 0) outer fuel rest
      | none =>
        match opening f cs with
        | some (own, rest) => brackets f ⟨List.replicate own 0, none⟩ (c :: outer) fuel rest
        | none => none
    | ']' :: cs =>
      match outer with
      | [] => some (c.depth + 1, cs)
      | d :: outer => brackets f (d.add (c.depth + 1)) outer fuel cs
    | '&' :: '&' :: cs | '-' :: '-' :: cs | '~' :: '~' :: cs =>
      brackets f ⟨[], some c.depth⟩ outer fuel cs
    | cs =>
      match range f cs with
      | some rest => brackets f (c.add 0) outer fuel rest
      | none => none

/-! ## Groups -/

def readFlags (f : Flags) (given : List Char) : List Char → Option (Flags × List Char × List Char)
  | [] => none
  | c :: cs =>
    if c = ':' || c = ')' then
      if given.head? = some '-' then none else some (f, given, c :: cs)
    else if given.contains c then none
    else
      let on := !given.contains '-'
      match c with
      | 'i' => readFlags { f with caseless := on } (c :: given) cs
      | 'u' => readFlags { f with unicode := on } (c :: given) cs
      | 'x' => readFlags { f with spaced := on } (c :: given) cs
      | '-' | 'm' | 's' | 'U' | 'R' => readFlags f (c :: given) cs
      | _ => none

def isName : List Char → Bool
  | [] => false
  | c :: cs => (c = '_' || Text.isAlphabetic c) && cs.all fun c =>
      ['_', '.', '[', ']'].contains c || Text.isAlphabetic c || Text.isNumeric c

inductive Opened
  | flags (f : Flags)
  | group (f : Flags) (names : List String)
  deriving Repr

def nameGroup (f : Flags) (names : List String) (cs : List Char) : Option (Opened × List Char) :=
  let name := cs.takeWhile (· ≠ '>')
  match cs.dropWhile (· ≠ '>') with
  | _ :: rest =>
    if isName name && !names.contains (String.ofList name) then
      some (.group f (String.ofList name :: names), rest)
    else none
  | [] => none

def openGroup (f : Flags) (names : List String) (cs : List Char) : Option (Opened × List Char) :=
  match skip f cs with
  | '?' :: '=' :: _ | '?' :: '!' :: _ | '?' :: '<' :: '=' :: _ | '?' :: '<' :: '!' :: _ => none
  | '?' :: 'P' :: '<' :: cs | '?' :: '<' :: cs => nameGroup f names cs
  | '?' :: cs =>
    match readFlags f [] cs with
    | some (g, _, ':' :: rest) => some (.group g names, rest)
    | some (g, given, _ :: rest) => if given.isEmpty then none else some (.flags g, rest)
    | _ => none
  | cs => some (.group f names, cs)

/-- An open group, or the pattern as a whole: the flags that hold in it, how deep its branches nest
that are finished, and each part of the one being read, last first. A change of flags is a part
without a depth. -/
structure Group where
  flags : Flags
  branches : List Nat := []
  parts : List (Option Nat) := []

namespace Group

def add (g : Group) (depth : Nat) : Group := { g with parts := some depth :: g.parts }

def branch (g : Group) : Nat := rowDepth (g.parts.map (·.getD 0))

def depth (g : Group) : Nat := rowDepth (g.branch :: g.branches)

def repeated? (g : Group) : Option Group :=
  match g.parts with
  | some depth :: parts => some { g with parts := some (depth + 1) :: parts }
  | _ => none

end Group

structure Reading where
  group : Group
  outer : List Group := []
  names : List String := []
  boundary : Bool := false

def Reading.add (r : Reading) (depth : Nat) : Reading := { r with group := r.group.add depth }

/-- Reads the rest of a pattern. Counts of repetitions cannot be written, since no closing brace
stands in a field. -/
def read (r : Reading) : (fuel : Nat) → List Char → Option Reading
  | 0, _ => none
  | fuel + 1, cs =>
    let g := r.group
    let f := g.flags
    match skip f cs with
    | [] => if r.outer.isEmpty then some r else none
    | '(' :: cs =>
      match openGroup f r.names cs with
      | some (.flags h, rest) =>
        read { r with group := { g with flags := h, parts := none :: g.parts } } fuel rest
      | some (.group h names, rest) =>
        read { r with group := { flags := h }, outer := g :: r.outer, names } fuel rest
      | none => none
    | ')' :: cs =>
      match r.outer with
      | h :: outer => read { r with group := h.add (g.depth + 1), outer } fuel cs
      | [] => none
    | '|' :: cs =>
      read { r with group := { g with branches := g.branch :: g.branches, parts := [] } } fuel cs
    | '[' :: cs =>
      match opening f cs with
      | none => none
      | some (own, rest) =>
        match brackets f ⟨List.replicate own 0, none⟩ [] (cs.length + 1) rest with
        | some (depth, rest) => read (r.add depth) fuel rest
        | none => none
    | '\x7b' :: _ => none
    | '?' :: cs | '*' :: cs | '+' :: cs =>
      match g.repeated? with
      | some g =>
        read { r with group := g } fuel (match cs with
          | '?' :: cs => cs
          | cs => cs)
      | none => none
    | '.' :: cs => if f.unicode then read (r.add 0) fuel cs else none
    | '^' :: cs | '$' :: cs => read (r.add 0) fuel cs
    | cs =>
      match item f cs with
      | none => none
      | some (atom, rest) =>
        let boundary := r.boundary || (f.unicode && atom = .wordBoundary)
        if atom.allowed f then read { r.add 0 with boundary } fuel rest else none

def fault? (pattern : List Char) : Option PatternFault :=
  match read { group := { flags := {} } } (pattern.length + 1) pattern with
  | none => some .unbuilt
  | some r =>
    if maxDepth < r.group.depth then some .unbuilt
    else if r.boundary then some .wordBoundary
    else none

/-! ## Values -/

def isNumber (cs : List Char) : Bool :=
  let word := (String.ofList cs).toLower
  let (whole, rest) := cs.span Char.isDigit
  let (fraction, rest) := match rest with
    | '.' :: rest => rest.span Char.isDigit
    | rest => ([], rest)
  let exponent := match rest with
    | [] => true
    | e :: sign :: rest =>
      (e = 'e' || e = 'E') &&
        let digits := if sign = '+' || sign = '-' then rest else sign :: rest
        !digits.isEmpty && digits.all Char.isDigit
    | _ => false
  ["inf", "infinity", "nan"].contains word || (!(whole.isEmpty && fraction.isEmpty) && exponent)

/-- A value is a number or else a pattern. Only a number with a plus sign is no pattern too. -/
def valueFault? (value : List Char) : Option PatternFault :=
  match value with
  | '+' :: cs => if isNumber cs then none else some .unbuilt
  | cs => fault? cs

end Pattern
end EntityFoundry.Console
