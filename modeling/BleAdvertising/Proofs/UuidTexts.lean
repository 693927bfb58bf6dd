import BleAdvertising.Proofs.UuidReading

/-!
# From UUIDs to texts and back

The text of a UUID says what its 128-bit expansion is (`text_eq_iff`), and not
how wide the UUID is. So the text is read back as the narrowest UUID with the
expansion (`parseInto_text`). Exactly the texts in canonical form are read
(`isSome_parse?_iff`), since no group of digits can make up for another. The text
that a UUID was read from is its own text in some letter case. Its form tells the
width of the UUID, and its digits are the number of the UUID
(`text_of_parseInto`).
-/
namespace BleAdvertising.Uuid
open Hex

/-! ## The form of a text -/

/-- Thirty-six octets, with hyphens in the four places for them and digits of one
    kind in all others. -/
def HasForm (Digit : UInt8 → Prop) (text : Octets) : Prop :=
  Hyphenated text ∧ ∀ place octet, text[place]? = some octet → place ∉ hyphens → Digit octet

/-- The groups leave out the hyphens alone. -/
theorem mem_flatten_groups {text : Octets} (sized : text.length = textLength) {place : Nat} {octet : UInt8}
    (found : text[place]? = some octet) (digit : place ∉ hyphens) : octet ∈ (groups text).flatten := by
  have covered : ∀ place < textLength, place ∉ hyphens →
      ∃ group ∈ digitGroups, group.1 ≤ place ∧ place < group.1 + group.2 := by decide
  have inside : place < textLength := sized ▸ (List.getElem?_eq_some_iff.mp found).1
  obtain ⟨group, member, low, high⟩ := covered place inside digit
  refine List.mem_flatten.mpr ⟨_, List.mem_map_of_mem member, ?_⟩
  apply List.mem_of_getElem? (i := place - group.1)
  rw [List.getElem?_take_of_lt (by omega), List.getElem?_drop, Nat.add_sub_cancel' low, found]

theorem hasForm_text (uuid : Uuid) : HasForm IsLowerDigit uuid.text := by
  have hyphenated : Hyphenated uuid.text := hyphenated_hyphenate (length_encode_expand uuid)
  refine ⟨hyphenated, ?_⟩
  intro place octet found digit
  have member := mem_flatten_groups hyphenated.1 found digit
  rw [text_eq_hyphenate, groups_hyphenate (length_encode_expand uuid)] at member
  exact isLowerDigit_of_mem_encode member

/-! ## Texts and expansions -/

theorem text_eq_iff (first second : Uuid) : first.text = second.text ↔ first.expand = second.expand := by
  constructor
  · intro same
    have digits := congrArg (fun text => (groups text).flatten) same
    simp only [text_eq_hyphenate, groups_hyphenate (length_encode_expand _)] at digits
    exact List.reverse_inj.mp (encode_inj digits)
  · intro same
    rw [text_eq_hyphenate, text_eq_hyphenate, same]

@[simp] theorem lowerCase_text (uuid : Uuid) : lowerCase uuid.text = uuid.text := by
  simp [text_eq_hyphenate, lowerCase_hyphenate]

theorem parse?_text (uuid : Uuid) : parse? uuid.text = some uuid.shorten :=
  parse?_of_text_eq (lowerCase_text uuid).symm

@[simp] theorem text_shorten (uuid : Uuid) : uuid.shorten.text = uuid.text :=
  (text_eq_iff _ _).mpr (expand_shorten uuid)

/-- Every UUID has a text of lower-case digits, which is read, into any target,
    as the narrowest UUID of that text, and as that one again from then on. This
    is the UUID itself where it has 16 bits, where it has 32 bits that need more
    than 16, and where it has 128 bits apart from the base UUID. Texts are equal
    exactly for equal expansions, so at one width only for equal UUIDs. -/
theorem parseInto_text (uuid : Uuid) :
    HasForm IsLowerDigit uuid.text ∧
      (∃ back : Uuid, (∀ target, parseInto uuid.text target = (true, back)) ∧ back.text = uuid.text ∧
        (∀ other : Uuid, other.text = uuid.text → back.width.octets ≤ other.width.octets) ∧
        (back = uuid ↔ uuid.width = .bits16 ∨
          uuid.width = .bits32 ∧ 0xFFFF < Octets.littleEndian uuid.octets ∨
          uuid.width = .bits128 ∧ uuid.octets.take 12 ≠ baseUuid.take 12) ∧
        ∀ target, parseInto back.text target = (true, back)) ∧
      (∀ other : Uuid, uuid.text = other.text ↔ uuid.expand = other.expand) ∧
      ∀ other : Uuid, uuid.width = other.width → uuid.text = other.text → uuid = other := by
  have read (target : Uuid) : parseInto uuid.text target = (true, uuid.shorten) :=
    parseInto_eq_true_iff.mpr (parse?_text uuid)
  refine ⟨hasForm_text uuid, ⟨uuid.shorten, read, text_shorten uuid, ?_, ?_, ?_⟩, text_eq_iff uuid, ?_⟩
  · intro other same
    exact width_shorten_le ((text_eq_iff other uuid).mp same)
  · exact shorten_eq_self_iff uuid
  · simpa using read
  · intro other width same
    exact eq_of_expand_of_width width ((text_eq_iff uuid other).mp same)

/-- At `0xFFFF` a UUID of 32 bits gives way to one of 16, and at `0x10000` it
    comes back. -/
theorem parseInto_text_ofUInt32 :
    (∃ back : Uuid, parseInto (ofUInt32 0xFFFF).text default = (true, back) ∧ back.width = .bits16) ∧
      parseInto (ofUInt32 0x10000).text default = (true, ofUInt32 0x10000) ∧
      (ofUInt32 0x10000).text = (ofText (ofUInt32 0x10000).text).text ∧
      ofUInt32 0x10000 = ofText (ofUInt32 0x10000).text := by
  obtain ⟨-, ⟨back, read, -, least, -⟩, -⟩ := parseInto_text (ofUInt32 0xFFFF)
  obtain ⟨-, ⟨kept, readKept, -, -, same, -⟩, -, injective⟩ := parseInto_text (ofUInt32 0x10000)
  have narrow : back.width.octets ≤ Width.bits16.octets := least (ofUInt16 0xFFFF) (by decide +kernel)
  obtain rfl : kept = ofUInt32 0x10000 := same.mpr (.inr (.inl ⟨rfl, by decide⟩))
  have texts : (ofUInt32 0x10000).text = (ofText (ofUInt32 0x10000).text).text := by decide +kernel
  refine ⟨⟨back, read default, ?_⟩, readKept default, texts, injective _ (by decide +kernel) texts⟩
  cases width : back.width with
  | bits16 => rfl
  | _ => simp [width, Width.octets] at narrow

/-! ## The texts that are read -/

/-- Thirty-six octets: hyphens in four places, and digits of either letter case in
    all the others. -/
structure IsCanonical (text : Octets) : Prop where
  counted : text.length = 36
  hyphens : ∀ place ∈ [8, 13, 18, 23], text[place]? = some 0x2D
  digits : ∀ place octet, text[place]? = some octet → place ∉ [8, 13, 18, 23] → IsDigit octet

theorem isCanonical_iff {text : Octets} : IsCanonical text ↔ HasForm IsDigit text := by
  constructor
  · rintro ⟨counted, hyphens, digits⟩
    exact ⟨⟨counted, hyphens⟩, digits⟩
  · rintro ⟨⟨counted, hyphens⟩, digits⟩
    exact ⟨counted, hyphens, digits⟩

/-- No group reaches over a hyphen. -/
theorem place_of_mem_groups {text row : Octets} (member : row ∈ groups text) {octet : UInt8} (inside : octet ∈ row) :
    ∃ place, text[place]? = some octet ∧ place ∉ hyphens := by
  have apart : ∀ group ∈ digitGroups, ∀ step < group.2, group.1 + step ∉ hyphens := by decide
  obtain ⟨group, listed, rfl⟩ := List.mem_map.mp member
  obtain ⟨step, found⟩ := List.mem_iff_getElem?.mp inside
  have short : step < group.2 := by
    have bounded := (List.getElem?_eq_some_iff.mp found).1
    rw [List.length_take] at bounded
    omega
  rw [List.getElem?_take_of_lt short, List.getElem?_drop] at found
  exact ⟨group.1 + step, found, apart group listed step short⟩

theorem hasForm_of_parse? {text : Octets} {uuid : Uuid} (read : parse? text = some uuid) : HasForm IsDigit text := by
  obtain ⟨-, written⟩ := parse?_eq_some_iff.mp read
  obtain ⟨hyphenated, digits⟩ := hasForm_text uuid
  rw [written] at hyphenated digits
  refine ⟨(hyphenated_lowerCase_iff text).mp hyphenated, ?_⟩
  intro place octet found digit
  have lowered : (lowerCase text)[place]? = some (lowerOctet octet) := by
    rw [lowerCase, List.getElem?_map, found, Option.map_some]
  exact (isDigit_lowerOctet_iff octet).mp (.inl (digits place _ lowered digit))

theorem isSome_parse?_of_hasForm {text : Octets} (form : HasForm IsDigit text) : (parse? text).isSome := by
  obtain ⟨hyphenated, digits⟩ := form
  have rows : ∀ row ∈ groups text, ∀ octet ∈ row, IsDigit octet := by
    intro row member octet inside
    obtain ⟨place, found, digit⟩ := place_of_mem_groups member inside
    exact digits place octet found digit
  obtain ⟨octets, written, read⟩ := readGroups_of_digits hyphenated.1 rows
  have sixteen : octets.length = 16 := by
    have counted := congrArg List.length written
    simp only [length_lowerCase, length_flatten_groups hyphenated.1, length_encode] at counted
    omega
  have complete : (readGroups text).consumed = 32 ∧ (readGroups text).output.length = 16 := by
    rw [read]
    exact ⟨rfl, sixteen⟩
  rw [parse?, if_pos hyphenated]
  simp only [dif_pos complete, Option.isSome_some]

theorem isSome_parse?_iff (text : Octets) : (parse? text).isSome ↔ IsCanonical text := by
  rw [isCanonical_iff]
  constructor
  · intro accepted
    obtain ⟨uuid, read⟩ := Option.isSome_iff_exists.mp accepted
    exact hasForm_of_parse? read
  · exact isSome_parse?_of_hasForm

theorem fst_parseInto (text : Octets) (target : Uuid) : (parseInto text target).1 = (parse? text).isSome := by
  rw [parseInto]
  cases parse? text <;> rfl

theorem length_octets_mem (uuid : Uuid) : uuid.octets.length ∈ [2, 4, 16] := by
  rw [length_octets]
  cases uuid.width <;> decide

/-- Exactly the texts in canonical form are accepted. A refused text leaves every
    target as it was, and an accepted one gives every target the same UUID. -/
theorem parseInto_accepts (text : Octets) :
    (∀ target, (parseInto text target).1 = true ↔ IsCanonical text) ∧
      (∀ target, (parseInto text target).1 = false → (parseInto text target).2 = target) ∧
      ((∃ target, (parseInto text target).1 = true) →
        ∃ uuid : Uuid, uuid.octets.length ∈ [2, 4, 16] ∧ ∀ target, parseInto text target = (true, uuid)) := by
  refine ⟨?_, ?_, ?_⟩
  · intro target
    rw [fst_parseInto, isSome_parse?_iff]
  · intro target refused
    rw [fst_parseInto, Option.isSome_eq_false_iff, Option.isNone_iff_eq_none] at refused
    rw [parseInto, refused]
  · rintro ⟨target, accepted⟩
    rw [fst_parseInto] at accepted
    obtain ⟨uuid, read⟩ := Option.isSome_iff_exists.mp accepted
    exact ⟨uuid, length_octets_mem uuid, fun other => parseInto_eq_true_iff.mpr read⟩

/-- Digits of both letter cases. -/
def heartRateText : Octets := Utf8.encode "0000180D-0000-1000-8000-00805f9B34fb".toList

/-- All in place but for one digit, a NUL. -/
def holedText : Octets := heartRateText.set 35 0

theorem parseInto_accepts_heartRateText :
    (parseInto heartRateText default).1 = true ∧ IsCanonical heartRateText ∧
      (∃ uuid, ∀ target, parseInto heartRateText target = (true, uuid)) ∧
      (parseInto holedText (ofUInt32 7)).1 = false ∧ (parseInto holedText (ofUInt32 7)).2 = ofUInt32 7 := by
  obtain ⟨form, -, read⟩ := parseInto_accepts heartRateText
  obtain ⟨-, kept, -⟩ := parseInto_accepts holedText
  have accepted : (parseInto heartRateText default).1 = true := by decide +kernel
  have refused : (parseInto holedText (ofUInt32 7)).1 = false := by decide +kernel
  obtain ⟨uuid, -, same⟩ := read ⟨default, accepted⟩
  exact ⟨accepted, (form default).mp accepted, ⟨uuid, same⟩, refused, kept _ refused⟩

/-! ## Short forms -/

def fourZeros : Octets := Utf8.encode "0000".toList

theorem length_fourZeros : fourZeros.length = 4 := rfl

/-- What follows the first eight digits in the texts of UUIDs of 16 or 32 bits. -/
def baseTail : Octets := Utf8.encode "-0000-1000-8000-00805f9b34fb".toList

/-- Texts `0000hhhh-0000-1000-8000-00805f9b34fb`, where every `h` is a digit. -/
def IsForm16 (text : Octets) : Prop :=
  ∃ digits : Octets, digits.length = 4 ∧ (∀ octet ∈ digits, IsLowerDigit octet) ∧
    text = fourZeros ++ digits ++ baseTail

/-- Texts `hhhhhhhh-0000-1000-8000-00805f9b34fb`, where every `h` is a digit and
    one of the first four is not zero. -/
def IsForm32 (text : Octets) : Prop :=
  ∃ digits : Octets, digits.length = 8 ∧ (∀ octet ∈ digits, IsLowerDigit octet) ∧ digits.take 4 ≠ fourZeros ∧
    text = digits ++ baseTail

theorem text_of_expand {uuid : Uuid} {four : Octets} (sized : four.length = 4)
    (parts : uuid.expand = baseUuid.take shortOffset ++ four) : uuid.text = encode four.reverse ++ baseTail := by
  obtain ⟨entry, rfl⟩ := exists_ofFn sized
  rw [text_eq_hyphenate, parts]
  rfl

theorem text_bits16 {uuid : Uuid} (kind : uuid.width = .bits16) :
    uuid.text = fourZeros ++ encode uuid.octets.reverse ++ baseTail := by
  have sized : (uuid.octets ++ [0, 0]).length = 4 := by
    simp [kind, Width.octets]
  rw [text_of_expand sized (expand_bits16 kind), List.reverse_append, encode_append]
  rfl

theorem text_bits32 {uuid : Uuid} (kind : uuid.width = .bits32) :
    uuid.text = encode uuid.octets.reverse ++ baseTail := by
  have sized : uuid.octets.length = 4 := by simp [kind, Width.octets]
  exact text_of_expand sized (expand_bits32 kind)

/-- Digits in pairs, as many as a width has, are the octets of a UUID of that
    width. -/
theorem exists_uuid_of_digits (width : Width) {digits : Octets} (sized : digits.length = 2 * width.octets)
    (lower : ∀ octet ∈ digits, IsLowerDigit octet) :
    ∃ uuid : Uuid, uuid.width = width ∧ encode uuid.octets.reverse = digits := by
  obtain ⟨octets, written⟩ := exists_encode_of_digits ⟨width.octets, sized⟩ (fun octet member => .inl (lower octet member))
  rw [lowerCase_eq_self lower] at written
  have counted : octets.reverse.length = width.octets := by
    rw [written, length_encode] at sized
    rw [List.length_reverse]
    omega
  exact ⟨⟨width, octets.reverse, counted⟩, rfl, by rw [List.reverse_reverse, written]⟩

theorem Narrow.width_le {uuid other : Uuid} (narrow : uuid.Narrow) (same : other.text = uuid.text) :
    uuid.width.octets ≤ other.width.octets := by
  rw [← (shorten_eq_self_iff uuid).mpr narrow]
  exact width_shorten_le ((text_eq_iff other uuid).mp same)

theorem width_eq_bits16_iff {uuid : Uuid} (narrow : uuid.Narrow) : uuid.width = .bits16 ↔ IsForm16 uuid.text := by
  constructor
  · intro kind
    refine ⟨encode uuid.octets.reverse, ?_, fun _ => isLowerDigit_of_mem_encode, text_bits16 kind⟩
    simp [kind, Width.octets]
  · rintro ⟨digits, sized, lower, form⟩
    obtain ⟨other, kind, rfl⟩ := exists_uuid_of_digits .bits16 sized lower
    have least := narrow.width_le ((text_bits16 kind).trans form.symm)
    rw [kind] at least
    cases width : uuid.width with
    | bits16 => rfl
    | _ => simp [width, Width.octets] at least

theorem width_eq_bits32_iff {uuid : Uuid} (narrow : uuid.Narrow) : uuid.width = .bits32 ↔ IsForm32 uuid.text := by
  constructor
  · intro kind
    refine ⟨encode uuid.octets.reverse, ?_, fun _ => isLowerDigit_of_mem_encode, ?_, text_bits32 kind⟩
    · simp [kind, Width.octets]
    · -- With four zeros in front the text would be that of a UUID of 16 bits.
      intro zeros
      have form : IsForm16 uuid.text := by
        refine ⟨(encode uuid.octets.reverse).drop 4, ?_, ?_, ?_⟩
        · simp [kind, Width.octets]
        · intro octet member
          exact isLowerDigit_of_mem_encode (List.mem_of_mem_drop member)
        · rw [← zeros, List.take_append_drop, text_bits32 kind]
      rw [(width_eq_bits16_iff narrow).mpr form] at kind
      cases kind
  · rintro ⟨digits, sized, lower, nonzero, form⟩
    obtain ⟨other, kind, rfl⟩ := exists_uuid_of_digits .bits32 sized lower
    have least := narrow.width_le ((text_bits32 kind).trans form.symm)
    rw [kind] at least
    cases width : uuid.width with
    | bits16 =>
      rw [text_bits16 width, List.append_assoc] at form
      refine absurd ?_ nonzero
      have front := congrArg (List.take 4) form
      rw [List.take_left' length_fourZeros, List.take_append_of_le_length (by rw [sized]; decide)] at front
      exact front.symm
    | bits32 => rfl
    | bits128 => simp [width, Width.octets] at least

theorem width_eq_bits128_iff {uuid : Uuid} (narrow : uuid.Narrow) :
    uuid.width = .bits128 ↔ ¬ IsForm16 uuid.text ∧ ¬ IsForm32 uuid.text := by
  rw [← width_eq_bits16_iff narrow, ← width_eq_bits32_iff narrow]
  cases uuid.width <;> simp

/-! ## The number of a UUID -/

/-- The digits of a text that are the number of a UUID of a given width. -/
def significant (text : Octets) : Width → Octets
  | .bits16 => (text.drop 4).take 4
  | .bits32 => text.take 8
  | .bits128 => text

theorem lowerCase_significant (text : Octets) (width : Width) :
    lowerCase (significant text width) = significant (lowerCase text) width := by
  cases width <;> simp [significant, lowerCase]

theorem number_hyphenate {digits : Octets} (sized : digits.length = 32) : number (hyphenate digits) = number digits := by
  rw [number, number, filterMap_digit?_hyphenate sized]

theorem number_significant_text (uuid : Uuid) :
    number (significant uuid.text uuid.width) = Octets.littleEndian uuid.octets := by
  cases kind : uuid.width with
  | bits16 =>
    have sized : (encode uuid.octets.reverse).length = 4 := by simp [kind, Width.octets]
    rw [significant, text_bits16 kind, List.append_assoc, List.drop_left' length_fourZeros, List.take_left' sized,
      number_encode, List.reverse_reverse]
  | bits32 =>
    have sized : (encode uuid.octets.reverse).length = 8 := by simp [kind, Width.octets]
    rw [significant, text_bits32 kind, List.take_left' sized, number_encode, List.reverse_reverse]
  | bits128 =>
    rw [significant, text_eq_hyphenate, number_hyphenate (length_encode_expand uuid), number_encode,
      List.reverse_reverse, expand_bits128 kind]

theorem octets_eq_ofNat {text : Octets} {uuid : Uuid} (written : uuid.text = lowerCase text) :
    uuid.octets = Octets.ofNat uuid.width.octets (number (significant text uuid.width)) := by
  have denoted : number (significant text uuid.width) = Octets.littleEndian uuid.octets := by
    rw [← number_lowerCase, lowerCase_significant, ← written, number_significant_text]
  rw [denoted, ← uuid.sized, Octets.ofNat_littleEndian]

/-! ## Reading and writing again -/

/-- A text that is read into a target is the text of the UUID read, up to letter
    case. The UUID has 16 or 32 bits exactly for the short forms, and 128 bits
    otherwise, and its octets are those of the number that its digits denote. So
    two texts are read as one UUID exactly where they agree up to letter case. -/
theorem text_of_parseInto {text : Octets} {target uuid : Uuid} (accepted : parseInto text target = (true, uuid)) :
    uuid.text = lowerCase text ∧
      (uuid.width = .bits16 ↔ IsForm16 (lowerCase text)) ∧
      (uuid.width = .bits32 ↔ IsForm32 (lowerCase text)) ∧
      (uuid.width = .bits128 ↔ ¬ IsForm16 (lowerCase text) ∧ ¬ IsForm32 (lowerCase text)) ∧
      uuid.octets = Octets.ofNat uuid.width.octets (number (significant text uuid.width)) ∧
      ∀ otherText otherTarget other, parseInto otherText otherTarget = (true, other) →
        (uuid = other ↔ lowerCase text = lowerCase otherText) := by
  obtain ⟨narrow, written⟩ := parse?_eq_some_iff.mp (parseInto_eq_true_iff.mp accepted)
  rw [← written]
  refine ⟨rfl, width_eq_bits16_iff narrow, width_eq_bits32_iff narrow, width_eq_bits128_iff narrow,
    octets_eq_ofNat written, ?_⟩
  intro otherText otherTarget other otherAccepted
  obtain ⟨otherNarrow, otherWritten⟩ := parse?_eq_some_iff.mp (parseInto_eq_true_iff.mp otherAccepted)
  rw [← otherWritten]
  constructor
  · exact congrArg Uuid.text
  · intro same
    exact narrow.eq_of_expand otherNarrow ((text_eq_iff uuid other).mp same)

/-- Letters of both cases in one text. -/
def mixedText : Octets := Utf8.encode "0001aBcD-0000-1000-8000-00805F9b34Fb".toList

theorem text_of_parseInto_mixedText :
    parseInto mixedText default = (true, ofUInt32 0x1ABCD) ∧
      (ofUInt32 0x1ABCD).text = lowerCase mixedText ∧ IsForm32 (lowerCase mixedText) ∧
      parseInto (lowerCase mixedText) (ofUInt16 7) = (true, ofUInt32 0x1ABCD) ∧
      lowerCase mixedText = lowerCase (lowerCase mixedText) := by
  have accepted : parseInto mixedText default = (true, ofUInt32 0x1ABCD) := by decide +kernel
  have lowered : parseInto (lowerCase mixedText) (ofUInt16 7) = (true, ofUInt32 0x1ABCD) := by decide +kernel
  obtain ⟨written, -, form, -, -, agree⟩ := text_of_parseInto accepted
  exact ⟨accepted, written, form.mp rfl, lowered, (agree _ _ _ lowered).mp rfl⟩

end BleAdvertising.Uuid
