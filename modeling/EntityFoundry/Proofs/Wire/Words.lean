import EntityFoundry.Component.Tag
import EntityFoundry.Entity
import EntityFoundry.Proofs.Wire.Numbers
/-! Ids and tags on the wire. They are numbers of 64 bits, each written in a shortest form, and no
form is the front of another. They are read from every form of their number, whatever follows it,
and from nothing else; the forms of a negative number are refused. -/
namespace EntityFoundry.Wire
open Bytes

def wordLength (n : Nat) : Nat :=
  if n < 0x80 then 1
  else if n < 0x100 then 2
  else if n < 0x10000 then 3
  else if n < 0x100000000 then 5
  else 9

theorem putUnsignedLength (n : Nat) : (putUnsigned n []).length = wordLength n := by
  unfold putUnsigned wordLength
  split_ifs <;> simp [putWide, ofNatLength]

theorem putUnsignedSpells {n : Nat} (word : n < UInt64.size) :
    Spells (putUnsigned n []) (.scalar (.int false n)) := by
  have wide {m : UInt8} {w : Nat} (form : (m, w) ∈ unsignedForms) (small : n < span w) :
      Spells (putWide m w n []) (.scalar (.int false n)) := by
    rw [putWide, List.append_nil]
    exact .unsigned form small
  unfold putUnsigned
  split_ifs with fix byte short long
  · exact .fixPos fix
  · exact wide (m := 0xcc) (by simp [unsignedForms]) byte
  · exact wide (m := 0xcd) (by simp [unsignedForms]) short
  · exact wide (m := 0xce) (by simp [unsignedForms]) long
  · exact wide (m := 0xcf) (by simp [unsignedForms]) word

theorem SpellsInteger.width {b : Bytes} {i : Int} (spelled : SpellsInteger b i) :
    b.length = 1 ∧ i < 0x80 ∨ ∃ w ∈ [1, 2, 4, 8], b.length = 1 + w ∧ i < span w := by
  have widths : ∀ f ∈ unsignedForms ++ signedForms, f.2 ∈ [1, 2, 4, 8] := by
    simp [unsignedForms, signedForms]
  have behind (m : UInt8) (w n : Nat) : (m :: ofNat w n).length = 1 + w := by
    rw [List.length_cons, ofNatLength, Nat.add_comm]
  obtain ⟨signed, spelled⟩ := spelled
  cases spelled with
  | fixPos small => exact .inl ⟨rfl, by omega⟩
  | fixNeg small => exact .inl ⟨rfl, by omega⟩
  | @unsigned m w n form small =>
    exact .inr ⟨w, widths _ (List.mem_append_left _ form), behind m w n, by omega⟩
  | @signed m w i form low high =>
    exact .inr ⟨w, widths _ (List.mem_append_right _ form), behind m w _, by omega⟩

theorem wordLengthWide {w n : Nat} (width : w ∈ [1, 2, 4, 8]) (small : n < span w) :
    wordLength n ≤ 1 + w := by
  simp only [List.mem_cons, List.not_mem_nil, or_false] at width
  unfold wordLength
  rcases width with rfl | rfl | rfl | rfl
  · have byte : n < 0x100 := small
    split_ifs <;> omega
  · have short : n < 0x10000 := small
    split_ifs <;> omega
  · have long : n < 0x100000000 := small
    split_ifs <;> omega
  · split_ifs <;> omega

theorem wordLengthLeast {n : Nat} {b : Bytes} (spelled : SpellsInteger b n) :
    wordLength n ≤ b.length := by
  rcases spelled.width with ⟨one, small⟩ | ⟨w, width, long, small⟩
  · have least : wordLength n = 1 := if_pos (by omega)
    omega
  · rw [long]
    exact wordLengthWide width (by omega)

theorem Spells.prefixFree {b c : Bytes} {head other : Head} (spelled : Spells b head)
    (longer : Spells c other) (front : b <+: c) : b = c ∧ head = other := by
  obtain ⟨rest, rfl⟩ := front
  have whole := (spelled.reads rest).symm.trans longer.reads.read
  cases whole
  exact ⟨(List.append_nil b).symm, rfl⟩

structure Carries {α : Type} (make : UInt64 → α) (encode : α → Bytes)
    (decode : Bytes → Except Fault α) : Prop where
  form : ∀ v, Spells (encode (make v)) (.scalar (.int false v.toNat))
  length : ∀ v, (encode (make v)).length = wordLength v.toNat
  shortest : ∀ v b, SpellsInteger b v.toNat → (encode (make v)).length ≤ b.length
  prefixFree : ∀ v w, encode (make v) <+: encode (make w) → v = w
  readBack : ∀ v rest, decode (encode (make v) ++ rest) = .ok (make v)
  reads : ∀ v bytes, decode bytes = .ok (make v) ↔
    ∃ b rest, bytes = b ++ rest ∧ SpellsInteger b v.toNat
  negative : ∀ i b rest, i < 0 → SpellsInteger b i →
    decode (b ++ rest) = .error (.wrongValue (.integer i) "u64")

section Made
variable {α : Type} {make : UInt64 → α} {encode : α → Bytes} {decode : Bytes → Except Fault α}

theorem wordDecodes (made : Function.Injective make)
    (read : ∀ bytes, decode bytes = (Target.u64.decode bytes).map fun n => make (UInt64.ofNat n))
    (v : UInt64) (bytes : Bytes) :
    decode bytes = .ok (make v) ↔ ∃ b rest, bytes = b ++ rest ∧ SpellsInteger b v.toNat := by
  have whole (n : Nat) : Target.u64.decode bytes = .ok n ↔
      n < UInt64.size ∧ ∃ b rest, bytes = b ++ rest ∧ SpellsInteger b n := unsignedDecodes
  constructor
  · intro decoded
    rw [read] at decoded
    cases word : Target.u64.decode bytes with
    | error fault =>
      rw [word] at decoded
      cases decoded
    | ok n =>
      rw [word] at decoded
      obtain ⟨small, form⟩ := (whole n).mp word
      have same : UInt64.ofNat n = v := made (Except.ok.inj decoded)
      rwa [← same, UInt64.toNat_ofNat_of_lt' small]
  · intro form
    have word : Target.u64.decode bytes = .ok v.toNat := (whole _).mpr ⟨v.toNat_lt, form⟩
    rw [read, word]
    simp [Except.map]

theorem Carries.ofWord (made : Function.Injective make)
    (written : ∀ v, encode (make v) = putUnsigned v.toNat [])
    (read : ∀ bytes, decode bytes = (Target.u64.decode bytes).map fun n => make (UInt64.ofNat n)) :
    Carries make encode decode := by
  have form (v : UInt64) : Spells (encode (make v)) (.scalar (.int false v.toNat)) := by
    rw [written]
    exact putUnsignedSpells v.toNat_lt
  have reads := wordDecodes made read
  refine ⟨form, fun v => ?_, fun v b spelled => ?_, fun v w front => ?_, fun v rest => ?_, reads,
    fun i b rest negative spelled => ?_⟩
  · rw [written, putUnsignedLength]
  · rw [written, putUnsignedLength]
    -- A signed form may be as short as what is written, but never shorter.
    exact wordLengthLeast spelled
  · have same := ((form v).prefixFree (form w) front).2
    simpa only [Head.scalar.injEq, Scalar.int.injEq, true_and, Int.natCast_inj,
      UInt64.toNat_inj] using same
  · exact (reads v _).mpr ⟨_, rest, rfl, false, form v⟩
  · have refused : Target.u64.decode (b ++ rest) = _ := unsignedNegative negative spelled rest
    rw [read, refused]
    rfl

end Made

theorem idsAndTagsCarried :
    Carries Entity.mk Entity.encode Entity.decode ∧ Carries Tag.mk Tag.encode Tag.decode ∧
    ∀ v, Entity.encode ⟨v⟩ = Tag.encode ⟨v⟩ :=
  ⟨.ofWord (fun _ _ same => congrArg Entity.id same) (fun _ => rfl) fun _ => rfl,
    .ofWord (fun _ _ same => congrArg Tag.hash same) (fun _ => rfl) fun _ => rfl, fun _ => rfl⟩

theorem signedFormsCarried :
    Entity.encode ⟨300⟩ = [0xcd, 1, 44] ∧ SpellsInteger [0xd1, 1, 44] 300 ∧
      Entity.decode [0xd1, 1, 44, 0xc1] = .ok ⟨300⟩ ∧ SpellsInteger [0xd1, 0xff, 0xff] (-1) ∧
      Tag.decode [0xd1, 0xff, 0xff, 0xc1] = .error (.wrongValue (.integer (-1)) "u64") := by
  have form : (0xd1, 2) ∈ signedForms := by simp [signedForms]
  have positive : SpellsInteger [0xd1, 1, 44] 300 :=
    ⟨true, .signed (i := 300) form (by decide) (by decide)⟩
  have minusOne : SpellsInteger [0xd1, 0xff, 0xff] (-1) := by
    have spelled := Spells.signed (i := -1) form (by decide) (by decide)
    rw [show (-1 % span 2 : Int).toNat = 0xffff by decide] at spelled
    exact ⟨true, spelled⟩
  obtain ⟨ids, tags, -⟩ := idsAndTagsCarried
  exact ⟨rfl, positive, (ids.reads 300 _).mpr ⟨_, [0xc1], rfl, positive⟩, minusOne,
    tags.negative (-1) [0xd1, 0xff, 0xff] [0xc1] (by decide) minusOne⟩

end EntityFoundry.Wire
