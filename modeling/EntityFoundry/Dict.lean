/-! Finite maps as lists of pairs, newest first. A key occurs at most once in every map
built by `insert` and `erase`, so the number of pairs is the number of keys. -/
namespace EntityFoundry

structure Dict (κ α : Type) where
  entries : List (κ × α)
  deriving Repr

namespace Dict
variable {κ α : Type}

def empty : Dict κ α := ⟨[]⟩

instance : EmptyCollection (Dict κ α) := ⟨empty⟩
instance : Inhabited (Dict κ α) := ⟨empty⟩

def size (d : Dict κ α) : Nat := d.entries.length

def keys (d : Dict κ α) : List κ := d.entries.map (·.1)

variable [DecidableEq κ]

def get? (d : Dict κ α) (k : κ) : Option α :=
  (d.entries.find? fun e => decide (e.1 = k)).map (·.2)

def contains (d : Dict κ α) (k : κ) : Bool := (d.get? k).isSome

def erase (d : Dict κ α) (k : κ) : Dict κ α := ⟨d.entries.filter fun e => decide (e.1 ≠ k)⟩

def insert (d : Dict κ α) (k : κ) (v : α) : Dict κ α := ⟨(k, v) :: (d.erase k).entries⟩

def insertNew (d : Dict κ α) (k : κ) (v : α) : Dict κ α :=
  if d.contains k then d else d.insert k v

theorem getErase (d : Dict κ α) (k j : κ) :
    (d.erase k).get? j = if j = k then none else d.get? j := by
  obtain ⟨es⟩ := d
  induction es with
  | nil => simp [erase, get?]
  | cons e es ih =>
    simp only [erase, get?] at ih ⊢
    by_cases hk : e.1 = k <;> by_cases hj : e.1 = j <;> by_cases hjk : j = k <;>
      simp_all

theorem getInsert (d : Dict κ α) (k j : κ) (v : α) :
    (d.insert k v).get? j = if j = k then some v else d.get? j := by
  have e := getErase d k j
  by_cases h : j = k
  · subst h; simp [insert, get?]
  · have : ¬ k = j := fun x => h x.symm
    simp only [h, if_false] at e ⊢
    simpa [insert, get?, this] using e

theorem getInsertNew (d : Dict κ α) (k j : κ) (v : α) :
    (d.insertNew k v).get? j = if j = k then some ((d.get? k).getD v) else d.get? j := by
  unfold insertNew contains
  cases h : d.get? k with
  | none => simp [getInsert]
  | some w =>
    by_cases hj : j = k
    · subst hj; simp [h]
    · simp [hj]

end Dict
end EntityFoundry
