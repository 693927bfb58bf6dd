import BleAdvertising.Proofs.Utf8Characters

/-!
# Well-formed octets as scalar values

The octets that pass the check are the shortest forms of Unicode scalar values,
and of one list of them only (`Denotes.unique`). A NUL may stand between any two
characters, since octets may be cut in two before any octet but a continuation
(`WellFormed.cut`).
-/
namespace BleAdvertising.Utf8

/-! ## Scalar values -/

/-- Code points up to U+10FFFF apart from the surrogates. -/
def IsScalar (code : Nat) : Prop := code ≤ 0x10FFFF ∧ ¬ (0xD800 ≤ code ∧ code ≤ 0xDFFF)

/-- The octets of a code point, no more of them than it needs. Each octet after
    the first one has six of its bits, and the first one has the others. -/
def shortestForm (code : Nat) : Octets :=
  if code < 0x80 then [UInt8.ofNat code]
  else if code < 0x800 then [UInt8.ofNat (0xC0 + code / 64), UInt8.ofNat (0x80 + code % 64)]
  else if code < 0x10000 then
    [UInt8.ofNat (0xE0 + code / 4096), UInt8.ofNat (0x80 + code / 64 % 64), UInt8.ofNat (0x80 + code % 64)]
  else
    [UInt8.ofNat (0xF0 + code / 262144), UInt8.ofNat (0x80 + code / 4096 % 64), UInt8.ofNat (0x80 + code / 64 % 64),
      UInt8.ofNat (0x80 + code % 64)]

/-- The octets are the shortest forms of scalar values, one after the other. -/
structure Denotes (codes : List Nat) (octets : Octets) : Prop where
  scalars : ∀ code ∈ codes, IsScalar code
  written : codes.flatMap shortestForm = octets

theorem isScalar_iff (code : Nat) : IsScalar code ↔ code.isValidChar := by
  simp only [IsScalar, Nat.isValidChar]
  omega

theorem shortestForm_toNat (character : Char) : shortestForm character.toNat = String.utf8EncodeChar character := by
  rw [shortestForm]
  split
  · rename_i upper
    exact (encodeChar_one upper).symm
  · split
    · rename_i lower upper
      exact (encodeChar_two (Nat.not_lt.mp lower) upper).symm
    · split
      · rename_i lower upper
        exact (encodeChar_three (Nat.not_lt.mp lower) upper).symm
      · rename_i lower
        exact (encodeChar_four (Nat.not_lt.mp lower)).symm

theorem flatMap_shortestForm (characters : List Char) :
    (characters.map Char.toNat).flatMap shortestForm = encode characters := by
  rw [List.flatMap_map, encode]
  simp only [shortestForm_toNat]

theorem exists_characters {codes : List Nat} (scalars : ∀ code ∈ codes, IsScalar code) :
    ∃ characters : List Char, characters.map Char.toNat = codes := by
  induction codes with
  | nil => exact ⟨[], rfl⟩
  | cons code codes ih =>
    obtain ⟨scalar, rest⟩ := List.forall_mem_cons.mp scalars
    obtain ⟨characters, rfl⟩ := ih rest
    exact ⟨Char.ofNatAux code ((isScalar_iff code).mp scalar) :: characters, rfl⟩

/-- Characters are scalar values, and scalar values are characters. -/
theorem denotes_iff {codes : List Nat} {octets : Octets} :
    Denotes codes octets ↔ ∃ characters : List Char, characters.map Char.toNat = codes ∧ encode characters = octets := by
  constructor
  · rintro ⟨scalars, rfl⟩
    obtain ⟨characters, rfl⟩ := exists_characters scalars
    exact ⟨characters, rfl, (flatMap_shortestForm characters).symm⟩
  · rintro ⟨characters, rfl, rfl⟩
    refine ⟨?_, flatMap_shortestForm characters⟩
    intro code member
    obtain ⟨character, -, rfl⟩ := List.mem_map.mp member
    exact (isScalar_iff _).mpr character.valid

theorem wellFormed_iff_exists_denotes (octets : Octets) : WellFormed octets ↔ ∃ codes, Denotes codes octets := by
  simp only [WellFormed, denotes_iff]
  constructor
  · rintro ⟨characters, written⟩
    exact ⟨_, characters, rfl, written⟩
  · rintro ⟨_, characters, -, written⟩
    exact ⟨characters, written⟩

theorem encode_inj {first second : List Char} (same : encode first = encode second) : first = second := by
  have octets : first.utf8Encode = second.utf8Encode := congrArg List.toByteArray same
  rw [← String.toByteArray_ofList, ← String.toByteArray_ofList, String.toByteArray_inj] at octets
  exact String.ofList_injective octets

theorem Denotes.unique {first second : List Nat} {octets : Octets} (one : Denotes first octets)
    (other : Denotes second octets) : first = second := by
  obtain ⟨characters, rfl, written⟩ := denotes_iff.mp one
  obtain ⟨others, rfl, same⟩ := denotes_iff.mp other
  rw [encode_inj (written.trans same.symm)]

/-! ## Around a NUL -/

theorem wellFormed_zero_cons (back : Octets) : WellFormed (0 :: back) ↔ WellFormed back := by
  have lone : WellFormed [0] := ⟨[Char.ofNat 0], rfl⟩
  constructor
  · intro whole
    exact lone.of_append whole
  · intro wellBack
    exact lone.append wellBack

theorem wellFormed_append_zero_cons (front back : Octets) :
    WellFormed (front ++ 0 :: back) ↔ WellFormed front ∧ WellFormed back := by
  constructor
  · intro whole
    have boundary : ∀ octet ∈ (0 :: back).head?, ¬ isContinuation octet := by
      intro octet first
      obtain rfl := Option.some.inj first
      decide
    obtain ⟨wellFront, wellBack⟩ := whole.cut boundary
    exact ⟨wellFront, (wellFormed_zero_cons back).mp wellBack⟩
  · rintro ⟨wellFront, wellBack⟩
    exact wellFront.append ((wellFormed_zero_cons back).mpr wellBack)

/-- The check passes exactly the octets that are the shortest forms of scalar
    values, which are then the only ones. A NUL may stand anywhere between
    characters. -/
theorem wellFormed_iff_denotes (octets : Octets) :
    (wellFormed octets ↔ ∃ codes, Denotes codes octets) ∧
      (wellFormed octets ↔ ∃! codes, Denotes codes octets) ∧
      ∀ front back, wellFormed (front ++ 0 :: back) ↔ wellFormed front ∧ wellFormed back := by
  have passed : wellFormed octets ↔ ∃ codes, Denotes codes octets :=
    (wellFormed_iff octets).trans (wellFormed_iff_exists_denotes octets)
  refine ⟨passed, ?_, ?_⟩
  · rw [passed]
    constructor
    · rintro ⟨codes, denotes⟩
      exact ⟨codes, denotes, fun other same => same.unique denotes⟩
    · rintro ⟨codes, denotes, -⟩
      exact ⟨codes, denotes⟩
  · intro front back
    rw [wellFormed_iff, wellFormed_iff, wellFormed_iff]
    exact wellFormed_append_zero_cons front back

end BleAdvertising.Utf8
