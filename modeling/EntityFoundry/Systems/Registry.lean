/-! A store with one value per key, whose type depends on the key. A key that is held cannot be
created again. -/
namespace EntityFoundry

structure Registry (κ : Type) (σ : κ → Type) where
  entries : List ((k : κ) × σ k) := []

namespace Registry
variable {κ : Type} [DecidableEq κ] {σ : κ → Type}

def find (k : κ) : List ((k : κ) × σ k) → Option (σ k)
  | [] => none
  | ⟨j, v⟩ :: rest => if h : j = k then some (h ▸ v) else find k rest

def replace (k : κ) (v : σ k) : List ((k : κ) × σ k) → List ((k : κ) × σ k)
  | [] => []
  | ⟨j, w⟩ :: rest => if j = k then ⟨k, v⟩ :: rest else ⟨j, w⟩ :: replace k v rest

def get? (r : Registry κ σ) (k : κ) : Option (σ k) := find k r.entries

def contains (r : Registry κ σ) (k : κ) : Bool := (r.get? k).isSome

def keys (r : Registry κ σ) : List κ := r.entries.map (·.1)

def size (r : Registry κ σ) : Nat := r.entries.length

def create? (r : Registry κ σ) (k : κ) (v : σ k) : Option (Registry κ σ) :=
  if r.contains k then none else some ⟨r.entries ++ [⟨k, v⟩]⟩

def set (r : Registry κ σ) (k : κ) (v : σ k) : Registry κ σ := ⟨replace k v r.entries⟩

def update (r : Registry κ σ) (k : κ) (change : σ k → σ k) : Registry κ σ :=
  match r.get? k with
  | some v => r.set k (change v)
  | none => r

def describe (r : Registry κ σ) : String := s!"Registry \x7b len: {r.size} \x7d"

def heldMessage (name : String) : String := s!"system '{name}' is already registered"

theorem findReplaceSelf (k : κ) (v : σ k) (es : List ((k : κ) × σ k)) :
    find k (replace k v es) = (find k es).map fun _ => v := by
  induction es with
  | nil => rfl
  | cons e es ih =>
    obtain ⟨j, w⟩ := e
    by_cases h : j = k
    · subst h; simp [replace, find]
    · simp [replace, find, h, ih]

theorem findReplaceOther {j k : κ} (different : j ≠ k) (v : σ k) (es : List ((k : κ) × σ k)) :
    find j (replace k v es) = find j es := by
  induction es with
  | nil => rfl
  | cons e es ih =>
    obtain ⟨i, w⟩ := e
    by_cases h : i = k
    · subst h
      have : ¬ i = j := fun x => different x.symm
      simp [replace, find, this]
    · simp [replace, find, h, ih]

theorem getSetSelf (r : Registry κ σ) (k : κ) (v : σ k) :
    (r.set k v).get? k = (r.get? k).map fun _ => v := findReplaceSelf k v r.entries

theorem getSetOther (r : Registry κ σ) {j k : κ} (different : j ≠ k) (v : σ k) :
    (r.set k v).get? j = r.get? j := findReplaceOther different v r.entries

theorem getUpdateSelf (r : Registry κ σ) (k : κ) (change : σ k → σ k) :
    (r.update k change).get? k = (r.get? k).map change := by
  unfold update
  cases held : r.get? k with
  | none => simp [held]
  | some v => simp [getSetSelf, held]

theorem getUpdateOther (r : Registry κ σ) {j k : κ} (different : j ≠ k) (change : σ k → σ k) :
    (r.update k change).get? j = r.get? j := by
  unfold update
  cases r.get? k with
  | none => rfl
  | some v => exact getSetOther r different (change v)

end Registry
end EntityFoundry
