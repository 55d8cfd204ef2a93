import EntityFoundry.Proofs.Schema.RoundTrip
import EntityFoundry.Proofs.Wire.Skipping
/-! Assets with bytes behind them, and assets cut short. An entity table ends where its last field
ends, and that is where one item ends; so whatever follows a loaded asset is not looked at, and no
strict front part of an asset that takes all its bytes loads at all. -/
namespace EntityFoundry
open Wire

theorem Payload.targetDelimited (room : Nat) : Delimited (target room).read := by
  refine headDelimited.bind fun head => ?_
  cases head with
  | binary raw => exact .pure _
  | text raw =>
    dsimp only
    split
    next => exact .throw _
    next => exact .pure _
  | array n => exact ((manyDelimited (Target.scalarDelimited _ _) n []).bind fun _ => .pure _).opened
  | scalar | map | ext => exact .throw _

theorem Payload.targetTakes (room : Nat) : TakesItem room (target room).read := by
  refine .headed fun head bytes p rest read => ?_
  cases head with
  | binary raw =>
    cases read
    cases room <;> rfl
  | text raw =>
    simp only at read
    cases decoded : Text.Utf8.decode raw with
    | ok s =>
      simp only [decoded] at read
      cases read
    | error fault =>
      simp only [decoded] at read
      cases read
      cases room <;> rfl
  | array n =>
    cases room with
    | zero => cases read
    | succ room =>
      obtain ⟨xs, middle, items, made⟩ := bindParts read
      cases made
      exact skipMany (Target.scalarTakes _ _ room) n items
  | scalar | map | ext => cases read

namespace ComponentTable

theorem slotsDelimited (room : Nat) : ∀ slot ∈ (shape room).slots, Delimited slot.read := by
  intro slot member
  rcases List.mem_cons.mp member with rfl | later
  · exact (Target.scalarDelimited _ _).map _
  · obtain rfl := List.mem_singleton.mp later
    exact (Target.optionalDelimited (Payload.targetDelimited _) rfl).map _

theorem slotsTake (room : Nat) : ∀ slot ∈ (shape room).slots, TakesItem (room - 1) slot.read := by
  intro slot member
  rcases List.mem_cons.mp member with rfl | later
  · exact (Target.scalarTakes _ _ _).map _
  · obtain rfl := List.mem_singleton.mp later
    exact (Target.optionalTakes (Payload.targetTakes _)).map _

theorem targetDelimited (room : Nat) : Delimited (target room).read :=
  Shape.targetDelimited (slotsDelimited room) room

theorem targetTakes (room : Nat) : TakesItem room (target room).read :=
  Shape.targetTakes (slotsTake room)

end ComponentTable

namespace EntityTable

theorem componentsDelimited (room : Nat) : Delimited (componentsSlot room).read :=
  (Target.listDelimited (ComponentTable.targetDelimited _) _).map _

theorem slotsDelimited {child : Target EntityTable} (delimited : Delimited child.read)
    (room : Nat) : ∀ slot ∈ (shape room child).slots, Delimited slot.read := by
  intro slot member
  rcases List.mem_cons.mp member with rfl | later
  · exact componentsDelimited room
  · obtain rfl := List.mem_singleton.mp later
    exact (Target.listDelimited delimited _).map _

theorem shapeDelimited {child : Target EntityTable} (delimited : Delimited child.read)
    (room : Nat) : Delimited ((shape room child).target room).read :=
  Shape.targetDelimited (slotsDelimited delimited room) room

theorem targetDelimited (room : Nat) : Delimited (target room).read := by
  induction room using target.induct with
  | case1 => exact shapeDelimited (.throw _) 0
  | case2 => exact shapeDelimited (.throw _) 1
  | case3 room ih => exact shapeDelimited ih (room + 2)

theorem slotsTake {child : Target EntityTable} {room : Nat}
    (takes : TakesItem (room - 2) child.read) :
    ∀ slot ∈ (shape room child).slots, TakesItem (room - 1) slot.read := by
  intro slot member
  rcases List.mem_cons.mp member with rfl | later
  · exact (Target.listTakes (ComponentTable.targetTakes _)).map _
  · obtain rfl := List.mem_singleton.mp later
    exact (Target.listTakes takes).map _

theorem shapeTakes {child : Target EntityTable} {room : Nat}
    (takes : TakesItem (room - 2) child.read) :
    TakesItem room ((shape room child).target room).read :=
  Shape.targetTakes (slotsTake takes)

theorem targetTakes (room : Nat) : TakesItem room (target room).read := by
  induction room using target.induct with
  | case1 | case2 => exact shapeTakes (.throw _)
  | case3 room ih => exact shapeTakes ih

theorem flatDelimited (room : Nat) : Delimited ((flatShape room).target room).read := by
  refine Shape.targetDelimited (fun slot member => ?_) room
  obtain rfl := List.mem_singleton.mp member
  exact componentsDelimited room

end EntityTable

namespace Schema
variable {schema : Schema} {types : TypeIndex} {u : EntityTable} {t : Tree} {ws : List Warning}

theorem targetDelimited (schema : Schema) : Delimited schema.target.read := by
  cases schema with
  | standard => exact EntityTable.targetDelimited maxOpen
  | flat => exact EntityTable.flatDelimited maxOpen

theorem rootRead {data : Bytes} (root : schema.root data = .ok u) :
    ∃ rest, schema.target.read data = .ok (u, rest) := by
  change (schema.target.read data).map (·.1) = .ok u at root
  cases read : schema.target.read data with
  | error fault =>
    rw [read] at root
    cases root
  | ok found =>
    rw [read] at root
    cases root
    exact ⟨found.2, rfl⟩

theorem loadRoot {data : Bytes} (loaded : schema.load types data = .ok (t, ws)) :
    ∃ u, schema.root data = .ok u ∧ u.tree types = t ∧ u.warnings types = ws := by
  unfold load at loaded
  cases root : schema.root data with
  | error fault =>
    rw [root] at loaded
    cases loaded
  | ok u =>
    rw [root] at loaded
    cases loaded
    exact ⟨u, rfl, rfl, rfl⟩

theorem loadExtended {data : Bytes} (loaded : schema.load types data = .ok (t, ws))
    (more : Bytes) : schema.load types (data ++ more) = .ok (t, ws) := by
  obtain ⟨u, root, rfl, rfl⟩ := loadRoot loaded
  obtain ⟨rest, read⟩ := rootRead root
  have further := (targetDelimited schema).extend read more
  have same : schema.root (data ++ more) = .ok u := by
    change (schema.target.read (data ++ more)).map (·.1) = _
    rw [further]; rfl
  simp only [load, same]

theorem loadCut {front back : Bytes} (whole : schema.target.read (front ++ back) = .ok (u, []))
    (missing : back ≠ []) (types : TypeIndex) :
    ∃ fault, schema.load types front = .error (.decode fault) := by
  obtain ⟨fault, stopped⟩ := (targetDelimited schema).cut whole missing
  have refused : schema.root front = .error fault := by
    change (schema.target.read front).map (·.1) = _
    rw [stopped]; rfl
  exact ⟨fault, by simp only [load, refused]⟩

theorem finalizedExtendedOrCut (types : TypeIndex) (t : Tree) (bytes : Bytes)
    (levels : t.height ≤ 511) (sized : t.Sized)
    (finalized : (standard.finalizeTree types t).1 = .ok bytes) :
    standard.load types bytes = .ok (t.viewed, []) ∧
      (∀ more, standard.load types (bytes ++ more) = standard.load types bytes) ∧
      ∀ front back, front ++ back = bytes → back ≠ [] →
        ∃ fault, standard.load types front = .error (.decode fault) := by
  obtain ⟨u, stored⟩ := t.stored (listedOfFinalized finalized) sized levels
  rw [finalizeStored stored] at finalized
  cases finalized
  have loaded := loadStored stored
  have read : standard.target.read (standard.encode u) = .ok (u, []) :=
    (EntityTable.readBack stored.writable maxOpen []).reads stored.writable.containersLe
  refine ⟨loaded, fun more => (loadExtended loaded more).trans loaded.symm, ?_⟩
  intro front back whole missing
  exact loadCut (by rw [whole]; exact read) missing types

theorem cartExtendedOrCut :
    let types : TypeIndex := { tags := [⟨7⟩, ⟨9⟩] }
    let t : Tree := .node [⟨⟨9⟩, .owned [1]⟩] [.leaf [⟨⟨7⟩, .owned []⟩]]
    let bytes : Bytes := [130, 170, 99, 111, 109, 112, 111, 110, 101, 110, 116, 115, 145, 130, 168,
      100, 101, 102, 95, 116, 121, 112, 101, 1, 163, 100, 101, 102, 196, 1, 1, 168, 99, 104, 105,
      108, 100, 114, 101, 110, 145, 130, 170, 99, 111, 109, 112, 111, 110, 101, 110, 116, 115, 145,
      130, 168, 100, 101, 102, 95, 116, 121, 112, 101, 0, 163, 100, 101, 102, 196, 0, 168, 99, 104,
      105, 108, 100, 114, 101, 110, 144]
    t.height ≤ 511 ∧ t.Sized ∧ (standard.finalizeTree types t).1 = .ok bytes ∧
      standard.load types (bytes ++ [0xc1]) = .ok (t.viewed, []) ∧
      ∀ front back, front ++ back = bytes → back ≠ [] →
        ∃ fault, standard.load types front = .error (.decode fault) := by
  intro types t bytes
  have levels : t.height ≤ 511 := by decide
  have sized : t.Sized :=
    .node (by decide) (List.forall_mem_singleton.mpr (.ofLeaf (by decide)))
  have finalized : (standard.finalizeTree types t).1 = .ok bytes := by rfl
  obtain ⟨loaded, extended, cut⟩ := finalizedExtendedOrCut types t bytes levels sized finalized
  exact ⟨levels, sized, finalized, (extended [0xc1]).trans loaded, cut⟩

end Schema
end EntityFoundry
