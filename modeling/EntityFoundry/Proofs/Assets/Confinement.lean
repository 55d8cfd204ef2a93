import EntityFoundry.Assets.Disk
/-! Paths inside a root. A relative file name that never climbs above where it starts stays inside
the root that it is joined to, on the disk as in its text, whatever directories the root leads
through. One that climbs leaves the root, and an absolute one is joined to no root at all. -/
namespace EntityFoundry

namespace Path

def below : (depth : Nat) → List Step → Bool
  | _, [] => true
  | depth, .here :: rest => below depth rest
  | depth, .name _ :: rest => below (depth + 1) rest
  | depth + 1, .up :: rest => below depth rest
  | 0, .up :: _ | _, .root :: _ => false

def Inside (root path : String) : Prop :=
  ∃ rel, steps path = steps root ++ rel ∧ below 0 rel = true

/-! The steps of a path. -/

def stepOf (s : String) : Step := if s = "." then .here else if s = ".." then .up else .name s

def words (ps : List String) : List Step := (ps.filter (! ·.isEmpty)).map stepOf

def walked (p : String) : List Step := words (pieces p)

theorem wordsAppend (ps qs : List String) : words (ps ++ qs) = words ps ++ words qs := by
  simp only [words, List.filter_append, List.map_append]

theorem wordsNamed {piece : String} (full : piece ≠ "") (ps : List String) :
    words (piece :: ps) = stepOf piece :: words ps := by
  rw [words, List.filter_cons_of_pos (by simpa using full), List.map_cons]
  rfl

def front (p : String) : List Step :=
  if isAbsolute p then [.root] else (walked p).head?.toList.filter (· = .here)

theorem stepsSplit (p : String) : steps p = front p ++ (walked p).filter (· ≠ .here) := by
  unfold steps front
  split
  next => rfl
  next =>
    have all : ((pieces p).filter (! ·.isEmpty)).map (fun s =>
        if s = "." then .here else if s = ".." then .up else .name s) = walked p := rfl
    dsimp only
    rw [all]
    cases walked p with
    | nil => rfl
    | cons s rest => cases s <;> rfl

theorem belowFilter (depth : Nat) (l : List Step) :
    below depth (l.filter (· ≠ .here)) = below depth l := by
  induction l generalizing depth with
  | nil => rfl
  | cons s rest ih =>
    cases s with
    | root => rfl
    | here => exact ih depth
    | name s => exact ih (depth + 1)
    | up =>
      cases depth with
      | zero => rfl
      | succ depth => exact ih depth

theorem belowSteps {p : String} (relative : isAbsolute p = false) :
    below 0 (steps p) = below 0 (walked p) := by
  rw [stepsSplit, ← belowFilter 0 (walked p), front, relative]
  cases walked p with
  | nil => rfl
  | cons s rest => cases s <;> rfl

theorem walkedNonempty {p : String} (relative : isAbsolute p = false) (given : p ≠ "") :
    walked p ≠ [] := by
  cases spelled : p.toList with
  | nil => exact absurd (String.toList_eq_nil_iff.mp spelled) given
  | cons c cs =>
    have other : c ≠ '/' := by
      intro slash
      rw [isAbsolute, spelled, slash] at relative
      cases relative
    obtain ⟨first, others, split⟩ := List.exists_cons_of_ne_nil (List.splitOnP_ne_nil (· == '/') cs)
    have shown : pieces p = String.ofList (c :: first) :: others.map String.ofList := by
      rw [pieces, spelled, List.splitOn, List.splitOnP_cons_eq_if_modifyHead, split,
        if_neg (by simpa using other)]
      rfl
    rw [walked, words, shown, List.filter_cons_of_pos (by simp)]
    exact List.cons_ne_nil _ _

/-! A root and a file name joined. -/

theorem piecesSlash (p q : String) : pieces (p ++ "/" ++ q) = pieces p ++ pieces q := by
  have spelled : (p ++ "/" ++ q).toList = p.toList ++ '/' :: q.toList := by simp
  rw [pieces, spelled, List.splitOn_append_cons_self, List.map_append]
  rfl

theorem absoluteAppend {p : String} (given : p ≠ "") (more : String) :
    isAbsolute (p ++ more) = isAbsolute p := by
  cases spelled : p.toList with
  | nil => exact absurd (String.toList_eq_nil_iff.mp spelled) given
  | cons c cs => rw [isAbsolute, isAbsolute, String.toList_append, spelled, List.cons_append,
      List.head?_cons, List.head?_cons]

section Joined
variable {root file : String} (relative : isAbsolute file = false)
include relative

variable (root) in
/-- A root that is empty or ends in a slash has one piece more than is seen in front of the file. -/
theorem joinPieces :
    ∃ before, pieces (join root file) = before ++ pieces file ∧
      (pieces root = before ∨ pieces root = before ++ [""]) := by
  unfold join
  rw [if_neg (by simp [relative])]
  split
  next short =>
    rcases Bool.or_eq_true_iff.mp short with empty | slash
    · obtain rfl := String.isEmpty_iff.mp empty
      exact ⟨[], by rw [String.empty_append]; rfl, .inr rfl⟩
    · obtain ⟨cs, spelled⟩ := List.getLast?_eq_some_iff.mp (of_decide_eq_true slash)
      obtain rfl : root = String.ofList cs ++ "/" := String.toList_injective (by simp [spelled])
      refine ⟨pieces (String.ofList cs), piecesSlash _ _, .inr ?_⟩
      rw [← String.append_empty (s := String.ofList cs ++ "/"), piecesSlash]
      rfl
  next => exact ⟨pieces root, piecesSlash _ _, .inl rfl⟩

theorem walkedJoin : walked (join root file) = walked root ++ walked file := by
  obtain ⟨before, joined, same | more⟩ := joinPieces root relative
  · rw [walked, walked, joined, same, wordsAppend]
    rfl
  · have nothing : words [""] = [] := rfl
    rw [walked, walked, joined, more, wordsAppend, wordsAppend, nothing, List.append_nil]
    rfl

theorem absoluteJoin : isAbsolute (join root file) = isAbsolute root := by
  unfold join
  rw [if_neg (by simp [relative])]
  by_cases given : root = ""
  · subst given
    exact relative
  · split
    next => exact absoluteAppend given file
    next =>
      rw [String.append_assoc]
      exact absoluteAppend given _

theorem frontJoin (given : root ≠ "") : front (join root file) = front root := by
  unfold front
  rw [absoluteJoin relative, walkedJoin relative]
  split
  next => rfl
  next loose =>
    obtain ⟨s, rest, some⟩ :=
      List.exists_cons_of_ne_nil (walkedNonempty (eq_false_of_ne_true loose) given)
    rw [some]
    rfl

theorem insideJoin : Inside root (join root file) ↔ below 0 (steps file) = true := by
  have joined : ∃ rel, steps (join root file) = steps root ++ rel ∧
      below 0 rel = below 0 (steps file) := by
    by_cases given : root = ""
    · subst given
      have same : join "" file = file := by simp [join, relative]
      exact ⟨steps file, congrArg steps same, rfl⟩
    · refine ⟨(walked file).filter (· ≠ .here), ?_, ?_⟩
      · rw [stepsSplit, stepsSplit, frontJoin relative given, walkedJoin relative,
          List.filter_append, List.append_assoc]
      · rw [belowFilter, belowSteps relative]
  obtain ⟨rel, split, same⟩ := joined
  rw [← same]
  constructor
  · rintro ⟨other, again, low⟩
    rw [split] at again
    rwa [List.append_cancel_left again]
  · exact fun low => ⟨rel, split, low⟩

end Joined
end Path

/-! The same on a disk. -/

def Place.parent : Place → Place
  | .above n => .above (n + 1)
  | .inside [] => .above 1
  | .inside (name :: names) => .inside (if name :: names = Disk.top then Disk.top else names)

namespace Disk
variable {d : Disk} {place next : Place}

inductive Moves : Place → String → Place → Prop
  | stay (place : Place) {piece : String} (idle : piece = "" ∨ piece = ".") :
      Moves place piece place
  | up (place : Place) : Moves place ".." place.parent
  | enter (names : List String) {piece : String} (full : piece ≠ "")
      (named : Path.stepOf piece = .name piece) :
      Moves (.inside names) piece (.inside (piece :: names))

theorem stepMoves {piece : String} (moved : d.step place piece = .ok next) :
    d.isDirectory place = true ∧ Moves place piece next := by
  unfold step at moved
  split at moved
  next => cases moved
  next directory =>
    refine ⟨by simpa using directory, ?_⟩
    split at moved
    next idle =>
      cases moved
      exact .stay place (by simpa using idle)
    next busy =>
      split at moved
      next up =>
        subst up
        have same : next = place.parent := by
          cases place with
          | above => cases moved; rfl
          | inside names =>
            cases names with
            | nil => cases moved; rfl
            | cons => cases moved; rfl
        exact same ▸ .up place
      next down =>
        split at moved
        next => cases moved
        next =>
          cases place with
          | above => cases moved
          | inside names =>
            simp only at moved
            split at moved
            next =>
              cases moved
              simp only [Bool.or_eq_true, not_or, decide_eq_true_eq] at busy
              refine .enter names (by simpa using busy.1) ?_
              rw [Path.stepOf, if_neg busy.2, if_neg down]
            next => cases moved

def lead (d : Disk) (place : Place) (ps : List String) : Except AssetFault Place :=
  ps.foldlM d.step place

theorem leadParts {piece : String} {ps : List String} {last : Place}
    (led : d.lead place (piece :: ps) = .ok last) :
    ∃ next, d.step place piece = .ok next ∧ d.lead next ps = .ok last := by
  rw [lead, List.foldlM_cons] at led
  cases moved : d.step place piece with
  | error fault =>
    rw [moved] at led
    cases led
  | ok next =>
    rw [moved] at led
    exact ⟨next, rfl, led⟩

theorem leadBelow (ps : List String) {depth : Nat} {names inner : List String} {last : Place}
    (deep : depth ≤ inner.length) (low : Path.below depth (Path.words ps) = true)
    (led : d.lead (.inside (inner ++ names)) ps = .ok last) :
    ∃ inner, last = .inside (inner ++ names) := by
  induction ps generalizing depth inner with
  | nil =>
    cases led
    exact ⟨inner, rfl⟩
  | cons piece ps ih =>
    obtain ⟨next, moved, others⟩ := leadParts led
    obtain ⟨-, moves⟩ := stepMoves moved
    generalize start : Place.inside (inner ++ names) = place at moves
    cases moves with
    | stay _ idle =>
      subst start
      rcases idle with rfl | rfl
      · exact ih deep low others
      · exact ih deep low others
    | up =>
      subst start
      cases depth with
      | zero => cases low
      | succ depth =>
        cases inner with
        | nil => cases deep
        | cons name inner =>
          have shallow := Nat.le_of_succ_le_succ deep
          rw [List.cons_append, Place.parent] at others
          split at others
          -- At the top `..` stays where it is, so the depth is a lower bound and no more.
          next top =>
            have same : Disk.top = (name :: inner) ++ names := top.symm
            rw [same] at others
            exact ih (Nat.le_succ_of_le shallow) low others
          next => exact ih shallow low others
    | enter _ full named =>
      obtain rfl := Place.inside.inj start
      rw [Path.wordsNamed full, named] at low
      rw [← List.cons_append] at others
      exact ih (Nat.succ_le_succ deep) low others

theorem leadAbove (ps : List String) {n : Nat} {last : Place}
    (low : Path.below 0 (Path.words ps) = true) (led : d.lead (.above n) ps = .ok last) :
    last = .above n := by
  induction ps with
  | nil =>
    cases led
    rfl
  | cons piece ps ih =>
    obtain ⟨next, moved, others⟩ := leadParts led
    obtain ⟨-, moves⟩ := stepMoves moved
    cases moves with
    | stay _ idle =>
      rcases idle with rfl | rfl
      · exact ih low others
      · exact ih low others
    | up => cases low

def reach (d : Disk) (path : String) : Except AssetFault Place :=
  d.lead (start path) (Path.pieces path)

theorem leadAppend (ps qs : List String) :
    d.lead place (ps ++ qs) = d.lead place ps >>= fun middle => d.lead middle qs := by
  unfold lead
  exact List.foldlM_append

theorem readParts {path : String} {bytes : Bytes} (read : d.read path = .ok bytes) :
    ∃ names, d.reach path = .ok (.inside names) ∧ d.isDirectory (.inside names) = false ∧
      d.nodes.get? names = some (some bytes) := by
  rw [Disk.read] at read
  cases walked : d.walk path with
  | error fault =>
    rw [walked] at read
    cases read
  | ok place =>
    have reached : d.reach path = .ok place := by
      unfold walk at walked
      split at walked
      next => cases walked
      next => exact walked
    rw [walked] at read
    cases place with
    | above => cases read
    | inside names =>
      change (if d.isDirectory (.inside names) = true then _ else _) = _ at read
      split at read
      next => cases read
      next leaf =>
        refine ⟨names, reached, eq_false_of_ne_true leaf, ?_⟩
        cases held : d.nodes.get? names with
        | none =>
          rw [held] at read
          cases read
        | some contents =>
          rw [held] at read
          cases contents with
          | none => cases read
          | some contents =>
            cases read
            rfl

theorem piecesNonempty (p : String) : Path.pieces p ≠ [] := by
  simp [Path.pieces, List.splitOn, List.splitOnP_ne_nil]

section Joined
variable {root file : String} (relative : Path.isAbsolute file = false)
include relative

theorem reachJoin {last : Place} (led : d.reach (Path.join root file) = .ok last) :
    ∃ middle, d.reach root = .ok middle ∧ d.isDirectory middle = true ∧
      d.lead middle (Path.pieces file) = .ok last := by
  obtain ⟨before, joined, same⟩ := Path.joinPieces root relative
  have started : start (Path.join root file) = start root := by
    rw [start, Path.absoluteJoin relative]
    rfl
  rw [reach, started, joined, leadAppend] at led
  cases first : d.lead (start root) before with
  | error fault =>
    rw [first] at led
    cases led
  | ok middle =>
    rw [first] at led
    obtain ⟨piece, ps, some⟩ := List.exists_cons_of_ne_nil (piecesNonempty file)
    have second : d.lead middle (piece :: ps) = .ok last := some ▸ led
    obtain ⟨_, moved, -⟩ := leadParts second
    obtain ⟨directory, -⟩ := stepMoves moved
    refine ⟨middle, ?_, directory, led⟩
    rcases same with same | more
    · rw [reach, same, first]
    · have stays : d.lead middle [""] = .ok middle := by
        simp [lead, step, directory]
      rw [reach, more, leadAppend, first]
      exact stays

theorem readBelow (low : Path.below 0 (Path.steps file) = true) {bytes : Bytes}
    (read : d.read (Path.join root file) = .ok bytes) :
    ∃ names inner, d.reach root = .ok (.inside names) ∧ inner ≠ [] ∧
      d.nodes.get? (inner ++ names) = some (some bytes) := by
  obtain ⟨whole, led, leaf, held⟩ := readParts read
  obtain ⟨middle, reached, directory, onward⟩ := reachJoin relative led
  rw [Path.belowSteps relative] at low
  cases middle with
  | above n => cases leadAbove _ low onward
  | inside names =>
    rw [← List.nil_append names] at onward
    obtain ⟨inner, same⟩ := leadBelow _ (Nat.zero_le _) low onward
    obtain rfl := Place.inside.inj same
    refine ⟨names, inner, reached, ?_, held⟩
    rintro rfl
    exact absurd directory (by rw [← List.nil_append names, leaf]; decide)

end Joined
end Disk
end EntityFoundry
