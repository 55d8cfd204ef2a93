import EntityFoundry.Wire.Record
/-! Readers take bytes from the front and look no further: the bytes taken settle what is read,
whatever follows them. So bytes after an item make no difference, and an item that is cut short at
any byte is not read at all. -/
namespace EntityFoundry.Wire

section Steps
variable {α β : Type} {x : Reader α} {bytes rest : Bytes} {a : α}

theorem bindOk {f : α → Reader β} (read : x bytes = .ok (a, rest)) :
    (x >>= f) bytes = f a rest := by
  change (x bytes >>= fun p => f p.1 p.2) = _
  rw [read]; rfl

theorem mapOk {f : α → β} (read : x bytes = .ok (a, rest)) :
    (f <$> x) bytes = .ok (f a, rest) := by
  change (x bytes >>= fun p => pure (f p.1, p.2)) = _
  rw [read]; rfl

theorem bindError {f : α → Reader β} {fault : Fault} (read : x bytes = .error fault) :
    (x >>= f) bytes = .error fault := by
  change (x bytes >>= fun p => f p.1 p.2) = _
  rw [read]; rfl

theorem bindParts {f : α → Reader β} {b : β} (read : (x >>= f) bytes = .ok (b, rest)) :
    ∃ a middle, x bytes = .ok (a, middle) ∧ f a middle = .ok (b, rest) := by
  cases first : x bytes with
  | error fault =>
    rw [bindError first] at read
    cases read
  | ok found =>
    rw [bindOk first] at read
    exact ⟨found.1, found.2, rfl, read⟩

theorem mapParts {f : α → β} {b : β} (read : (f <$> x) bytes = .ok (b, rest)) :
    ∃ a, x bytes = .ok (a, rest) ∧ f a = b := by
  obtain ⟨a, middle, first, last⟩ := bindParts (f := fun a => pure (f a)) read
  cases last
  exact ⟨a, first, rfl⟩

theorem listParts {ε : Type} {f : α → Except ε β} {xs : List α} {ys : List β}
    (made : (a :: xs).mapM f = .ok ys) :
    ∃ y zs, f a = .ok y ∧ xs.mapM f = .ok zs ∧ ys = y :: zs := by
  rw [List.mapM_cons] at made
  cases first : f a with
  | error e =>
    rw [first] at made
    cases made
  | ok y =>
    cases others : xs.mapM f with
    | error e =>
      rw [first, others] at made
      cases made
    | ok zs =>
      rw [first, others] at made
      cases made
      exact ⟨y, zs, rfl, rfl, rfl⟩

end Steps

theorem takeBytesAppend (fault : Fault) (front rest : Bytes) :
    takeBytes fault front.length (front ++ rest) = .ok (front, rest) := by
  simp [takeBytes]

def Delimited {α : Type} (x : Reader α) : Prop :=
  ∀ bytes a rest, x bytes = .ok (a, rest) →
    ∃ used, bytes = used ++ rest ∧ ∀ more, x (used ++ more) = .ok (a, more)

namespace Delimited
variable {α β : Type} {x : Reader α} {bytes rest : Bytes} {a : α}

theorem extend (delimited : Delimited x) (read : x bytes = .ok (a, rest)) (more : Bytes) :
    x (bytes ++ more) = .ok (a, rest ++ more) := by
  obtain ⟨used, rfl, reads⟩ := delimited bytes a rest read
  rw [List.append_assoc]
  exact reads (rest ++ more)

theorem cut (delimited : Delimited x) {front back : Bytes}
    (read : x (front ++ back) = .ok (a, [])) (missing : back ≠ []) :
    ∃ fault, x front = .error fault := by
  cases short : x front with
  | error fault => exact ⟨fault, rfl⟩
  | ok found =>
    have whole := delimited.extend short back
    rw [read] at whole
    have nothing : [] = found.2 ++ back := congrArg Prod.snd (Except.ok.inj whole)
    exact absurd (List.append_eq_nil_iff.mp nothing.symm).2 missing

theorem pure (a : α) : Delimited (Pure.pure a) := by
  intro bytes b rest read
  cases read
  exact ⟨[], rfl, fun _ => rfl⟩

theorem throw (fault : Fault) : Delimited (MonadExcept.throw fault : Reader α) :=
  fun _ _ _ read => nomatch read

theorem lift (result : Except Fault α) : Delimited (liftM result) := by
  cases result with
  | error fault => exact fun _ _ _ read => nomatch read
  | ok a => exact pure a

theorem bind {f : α → Reader β} (first : Delimited x) (next : ∀ a, Delimited (f a)) :
    Delimited (x >>= f) := by
  intro bytes b rest read
  obtain ⟨a, middle, front, back⟩ := bindParts read
  obtain ⟨used, rfl, reads⟩ := first bytes a middle front
  obtain ⟨further, rfl, goesOn⟩ := next a middle b rest back
  refine ⟨used ++ further, (List.append_assoc used further rest).symm, fun more => ?_⟩
  rw [List.append_assoc]
  exact (bindOk (reads (further ++ more))).trans (goesOn more)

theorem map (f : α → β) (delimited : Delimited x) : Delimited (f <$> x) :=
  delimited.bind fun a => pure (f a)

theorem opened {room : Nat} (inside : Delimited x) :
    Delimited (if room = 0 then MonadExcept.throw .depthLimit else x) := by
  split
  · exact throw _
  · exact inside

end Delimited

/-! Heads. -/

theorem byteDelimited (fault : Fault) : Delimited (takeByte fault) := by
  intro bytes b rest read
  cases bytes with
  | nil => cases read
  | cons c bytes =>
    cases read
    exact ⟨[b], rfl, fun _ => rfl⟩

theorem bytesDelimited (fault : Fault) (n : Nat) : Delimited (takeBytes fault n) := by
  intro bytes raw rest read
  simp only [takeBytes] at read
  split at read
  next full =>
    cases read
    refine ⟨bytes.take n, (List.take_append_drop n bytes).symm, fun more => ?_⟩
    have taken := takeBytesAppend fault (bytes.take n) more
    rwa [full] at taken
  next => cases read

theorem natDelimited (width : Nat) : Delimited (readNat width) :=
  (bytesDelimited .shortNumber width).bind fun _ => .pure _

theorem scalarDelimited {m : Marker} {scalar : Reader Scalar}
    (starts : readScalar? m = some scalar) : Delimited scalar := by
  cases m with
  | null | bool | fixPos | fixNeg =>
    cases starts
    exact .pure _
  | unsigned w | signed w | float w =>
    cases starts
    exact (natDelimited w).bind fun _ => .pure _
  | _ => cases starts

theorem textDelimited (n : Nat) : Delimited (readText n) :=
  (bytesDelimited .shortContents n).bind fun _ => .pure _

theorem binaryDelimited (n : Nat) : Delimited (readBinary n) :=
  (bytesDelimited .shortContents n).bind fun _ => .pure _

theorem headAfterDelimited (m : Marker) : Delimited (readHeadAfter m) := by
  unfold readHeadAfter
  split
  next scalar starts => exact (scalarDelimited starts).bind fun _ => .pure _
  next =>
    cases m with
    | fixStr n => exact textDelimited n
    | str w => exact (natDelimited w).bind textDelimited
    | bin w => exact (natDelimited w).bind binaryDelimited
    | fixArray | fixMap | fixExt => exact .pure _
    | array w | map w | ext w => exact (natDelimited w).bind fun _ => .pure _
    | _ => exact .throw _

theorem headDelimited : Delimited readHead :=
  ((byteDelimited .noMarker).bind fun _ => .pure _).bind headAfterDelimited

/-! Items, one after another or passed over. -/

theorem manyDelimited {α : Type} {item : Reader α} (delimited : Delimited item) (n : Nat)
    (seen : List α) : Delimited (readMany item n seen) := by
  induction n generalizing seen with
  | zero => exact .pure _
  | succ n ih => exact delimited.bind fun x => ih (x :: seen)

theorem timesDelimited {item : Reader Unit} (delimited : Delimited item) (n : Nat) :
    Delimited (times n item) := by
  induction n with
  | zero => exact .pure _
  | succ n ih => exact delimited.bind fun _ => ih

theorem skipDelimited (room : Nat) : Delimited (skip room) := by
  induction room with
  | zero =>
    refine headDelimited.bind fun head => ?_
    cases head with
    | array | map | ext => exact .throw _
    | scalar | text | binary => exact .pure _
  | succ room ih =>
    refine headDelimited.bind fun head => ?_
    cases head with
    | array n => exact timesDelimited ih n
    | map n => exact timesDelimited (ih.bind fun _ => ih) n
    | ext n =>
      exact (byteDelimited _).bind fun _ => (bytesDelimited _ n).bind fun _ => .pure _
    | scalar | text | binary => exact .pure _

theorem keyDelimited (room : Nat) : Delimited (readKey room) := by
  refine headDelimited.bind fun head => ?_
  cases head with
  | text | binary => exact .pure _
  | scalar s =>
    cases s with
    | int signed i =>
      cases signed with
      | false => exact .pure _
      | true => exact .throw _
    | nil | bool | single | double => exact .throw _
  | array | map | ext => exact .throw _

/-! Targets. -/

namespace Target
variable {α : Type} {t : Target α}

theorem scalarDelimited (expected : String) (accept : Scalar → Except Fault α) :
    Delimited (scalar expected accept).read := by
  refine ((byteDelimited .noMarker).bind fun _ => .pure _).bind fun m => ?_
  split
  next => exact .throw _
  next rest starts =>
    refine (Wire.scalarDelimited starts).bind fun s => ?_
    split
    next => exact .pure _
    next => exact .throw _

/-- A target that reads nothing at all could not be told from a missing one. -/
theorem optionalDelimited (inner : Delimited t.read) {fault : Fault}
    (hungry : t.read [] = .error fault) : Delimited (optional t).read := by
  intro bytes found rest read
  change (if bytes.head? = some 0xc0 then .ok (none, bytes.tail) else (some <$> t.read) bytes) = _
    at read
  split at read
  next nil =>
    cases read
    obtain ⟨tail, rfl⟩ := List.head?_eq_some_iff.mp nil
    exact ⟨[0xc0], rfl, fun _ => rfl⟩
  next other =>
    obtain ⟨a, taken, rfl⟩ := mapParts read
    obtain ⟨used, rfl, reads⟩ := inner bytes a rest taken
    cases used with
    | nil => cases hungry.symm.trans (reads [])
    | cons b used =>
      have different : (b :: used).head? ≠ some 0xc0 := other
      refine ⟨b :: used, rfl, fun more => ?_⟩
      exact (if_neg different).trans (mapOk (reads more))

theorem listDelimited (item : Delimited t.read) (room : Nat) : Delimited (list room t).read := by
  refine headDelimited.bind fun head => ?_
  cases head with
  | array n => exact (manyDelimited item n []).opened
  | binary raw => exact .lift _
  | scalar | text | map | ext => exact .throw _

end Target

/-! Records. -/

theorem Slot.findMem {σ : Type} {slots : List (Slot σ)} {key : Key} {slot : Slot σ}
    (found : find slots key = some slot) : slot ∈ slots := by
  cases key with
  | name raw => exact List.mem_of_find?_eq_some found
  | position n => exact List.mem_of_getElem? found

section Records
variable {σ τ : Type} {slots : List (Slot σ)}
  (delimited : ∀ slot ∈ slots, Delimited slot.read)
include delimited

theorem entriesDelimited (room n : Nat) (s : σ) :
    Delimited (Slot.readEntries room slots n s) := by
  induction n generalizing s with
  | zero => exact .pure _
  | succ n ih =>
    refine (keyDelimited room).bind fun key => ?_
    split
    next => exact (skipDelimited room).bind fun _ => ih s
    next slot found =>
      split
      next => exact .throw _
      next => exact (delimited slot (Slot.findMem found)).bind fun put => ih (put s)

theorem elementsDelimited (n : Nat) (s : σ) : Delimited (Slot.readElements slots n s) := by
  induction slots generalizing n s with
  | nil => exact .pure _
  | cons slot slots ih =>
    cases n with
    | zero => exact .pure _
    | succ n =>
      refine (delimited slot (by simp)).bind fun put => ?_
      exact ih (fun slot member => delimited slot (by simp [member])) n (put s)

omit delimited in
theorem Shape.targetDelimited {shape : Shape σ τ}
    (delimited : ∀ slot ∈ shape.slots, Delimited slot.read) (room : Nat) :
    Delimited (shape.target room).read := by
  refine headDelimited.bind fun head => ?_
  cases head with
  | array n =>
    refine Delimited.opened ((elementsDelimited delimited n shape.start).bind fun s => ?_)
    refine (Delimited.lift _).bind fun x => ?_
    split
    next => exact .throw _
    next => exact .pure _
  | map n =>
    exact ((entriesDelimited delimited (room - 1) n shape.start).bind fun s => .lift _).opened
  | binary raw => exact (Delimited.lift _).bind fun s => .lift _
  | scalar | text | ext => exact .throw _

end Records

end EntityFoundry.Wire
