import EntityFoundry.Factory.Creation
import EntityFoundry.Proofs.Systems.Told
/-! What can be read off the journal of a factory: the calls it made, and the parents and children
it gave notice of. -/
namespace EntityFoundry

def Entry.call? : Entry → Option Call
  | .call c => some c
  | .notice _ => none

def Notice.kin? : Notice → Option (Entity × Entity)
  | .childCreated parent child => some (parent, child)
  | _ => none

def Entry.kin? : Entry → Option (Entity × Entity)
  | .call _ => none
  | .notice n => n.kin?

namespace Factory

def readOff {α : Type} (read : Entry → Option α) (f : Factory) : List α := f.history.filterMap read

def calls (f : Factory) : List Call := f.readOff Entry.call?

def kinship (f : Factory) : List (Entity × Entity) := f.readOff Entry.kin?

theorem readOffEntry {α : Type} (read : Entry → Option α) (f g : Factory) {entry : Entry}
    (added : g.journal = entry :: f.journal) :
    g.readOff read = f.readOff read ++ (read entry).toList := by
  unfold readOff history
  rw [added, List.reverse_cons, List.filterMap_append]
  cases found : read entry with
  | none => rw [List.filterMap_cons_none found, List.filterMap_nil, Option.toList_none]
  | some x => rw [List.filterMap_cons_some found, List.filterMap_nil, Option.toList_some]

@[simp] theorem callsNote (f : Factory) (n : Notice) : (f.note n).calls = f.calls :=
  (readOffEntry Entry.call? f (f.note n) rfl).trans (List.append_nil _)

@[simp] theorem callsNoteAll (f : Factory) (ns : List Notice) : (f.noteAll ns).calls = f.calls := by
  induction ns generalizing f with
  | nil => rfl
  | cons n ns ih => exact (ih (f.note n)).trans (callsNote f n)

@[simp] theorem callsCalled (f : Factory) (c : Call) : (f.called c).calls = f.calls ++ [c] :=
  readOffEntry Entry.call? f (f.called c) rfl

@[simp] theorem callsTell (f : Factory) (c : Call) : (f.tell c).calls = f.calls ++ [c] :=
  callsCalled f c

theorem kinshipNote (f : Factory) (n : Notice) :
    (f.note n).kinship = f.kinship ++ n.kin?.toList := readOffEntry Entry.kin? f (f.note n) rfl

theorem kinshipTell (f : Factory) (c : Call) : (f.tell c).kinship = f.kinship :=
  (readOffEntry Entry.kin? f (f.tell c) rfl).trans (List.append_nil _)

theorem noteAllJournal (f : Factory) (ns : List Notice) :
    ∃ journal, f.noteAll ns = { f with journal := journal } := by
  induction ns generalizing f with
  | nil => exact ⟨f.journal, rfl⟩
  | cons n ns ih =>
    obtain ⟨journal, same⟩ := ih (f.note n)
    exact ⟨journal, same⟩

end Factory
end EntityFoundry
