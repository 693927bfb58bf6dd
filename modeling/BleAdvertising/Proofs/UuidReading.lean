import BleAdvertising.Proofs.HexReading
import BleAdvertising.Proofs.UuidWidths
import BleAdvertising.Utf8
import Mathlib.Data.List.OfFn

/-!
# UUIDs and their texts

A text is read group by group, and written as one row of digits with hyphens put
in. `hyphenate` and `groups` take one form to the other. Reading gives a UUID
exactly for its text in any letter case, and only UUIDs that cannot be shortened
(`parse?_eq_some_iff`). Each group has digits in pairs, so none is lost between
two groups, and one reading of the whole text that passes over the hyphens gives
the same octets (`decode_skip_of_parse?`).
-/
namespace BleAdvertising.Uuid
open Hex

/-! ## Groups of digits -/

/-- A row of digits with the hyphens between its groups. -/
def hyphenate (digits : Octets) : Octets :=
  digits.take 8 ++ hyphen :: (digits.drop 8).take 4 ++ hyphen :: (digits.drop 12).take 4 ++
    hyphen :: (digits.drop 16).take 4 ++ hyphen :: digits.drop 20

theorem text_eq_hyphenate (uuid : Uuid) : uuid.text = hyphenate (encode uuid.expand.reverse) := rfl

theorem length_encode_expand (uuid : Uuid) : (encode uuid.expand.reverse).length = 32 := by
  simp

/-- What stands in a text between the hyphens. -/
def groups (text : Octets) : List Octets := digitGroups.map fun group => (text.drop group.1).take group.2

/-- A list of known length is given by its entries. On such a list places are
    compared by evaluation. -/
theorem exists_ofFn {count : Nat} {octets : Octets} (sized : octets.length = count) :
    ∃ entry : Fin count → UInt8, octets = List.ofFn entry := by
  subst sized
  exact ⟨octets.get, (List.ofFn_get octets).symm⟩

theorem hyphenated_hyphenate {digits : Octets} (sized : digits.length = 32) : Hyphenated (hyphenate digits) := by
  obtain ⟨entry, rfl⟩ := exists_ofFn sized
  refine ⟨rfl, ?_⟩
  simp only [hyphens, List.forall_mem_cons, List.not_mem_nil, false_imp_iff, implies_true, and_true]
  exact ⟨rfl, rfl, rfl, rfl⟩

theorem groups_hyphenate {digits : Octets} (sized : digits.length = 32) :
    (groups (hyphenate digits)).flatten = digits := by
  obtain ⟨entry, rfl⟩ := exists_ofFn sized
  rfl

theorem hyphenate_groups {text : Octets} (hyphenated : Hyphenated text) : hyphenate (groups text).flatten = text := by
  obtain ⟨sized, found⟩ := hyphenated
  obtain ⟨entry, rfl⟩ := exists_ofFn sized
  have written : hyphenate (groups (List.ofFn entry)).flatten =
      List.ofFn (fun place : Fin textLength => if place.val ∈ hyphens then hyphen else entry place) := rfl
  rw [written]
  congr
  funext place
  split
  · rename_i member
    have here := found place.val member
    rw [List.getElem?_ofFn, dif_pos place.isLt, Option.some.injEq] at here
    exact here.symm
  · rfl

/-- Hyphens are no digits. -/
theorem filterMap_digit?_hyphenate {digits : Octets} (sized : digits.length = 32) :
    (hyphenate digits).filterMap digit? = digits.filterMap digit? := by
  have rows : digits.take 8 ++ (digits.drop 8).take 4 ++ (digits.drop 12).take 4 ++ (digits.drop 16).take 4 ++
      digits.drop 20 = digits := by
    obtain ⟨entry, rfl⟩ := exists_ofFn sized
    rfl
  have passed : digit? hyphen = none := by decide
  conv_rhs => rw [← rows]
  simp [hyphenate, passed]

/-- The sizes of the groups. -/
theorem map_length_groups {text : Octets} (sized : text.length = textLength) :
    (groups text).map List.length = [8, 4, 4, 4, 12] := by
  simp [groups, digitGroups, sized, textLength]

theorem length_flatten_groups {text : Octets} (sized : text.length = textLength) :
    (groups text).flatten.length = 32 := by
  rw [List.length_flatten, map_length_groups sized]
  rfl

theorem even_groups {text : Octets} (sized : text.length = textLength) : ∀ row ∈ groups text, 2 ∣ row.length := by
  have even : ∀ size ∈ [8, 4, 4, 4, 12], 2 ∣ size := by decide
  rw [← map_length_groups sized] at even
  exact List.forall_mem_map.mp even

theorem lowerCase_groups (text : Octets) : lowerCase (groups text).flatten = (groups (lowerCase text)).flatten := by
  simp [groups, digitGroups, lowerCase]

theorem lowerCase_hyphenate (digits : Octets) : lowerCase (hyphenate digits) = hyphenate (lowerCase digits) := by
  have kept : lowerOctet hyphen = hyphen := by decide
  simp [lowerCase, hyphenate, kept]

@[simp] theorem hyphenated_lowerCase_iff (text : Octets) : Hyphenated (lowerCase text) ↔ Hyphenated text := by
  have kept (octet : UInt8) : lowerOctet octet = hyphen ↔ octet = hyphen := by
    revert octet
    decide +kernel
  simp [Hyphenated, lowerCase, kept]

/-! ## Reading group by group -/

/-- A group read onto the output of the groups before it. -/
def readGroup (before : Decoded) (group : Octets) : Decoded :=
  let read := decode .stop group before.output
  { consumed := before.consumed + read.consumed, output := read.output }

theorem readGroups_eq (text : Octets) : readGroups text = (groups text).foldl readGroup { consumed := 0, output := [] } := by
  rw [groups, List.foldl_map]
  rfl

theorem readGroup_append {row : Octets} (even : 2 ∣ row.length) (digits : ∀ octet ∈ row, IsDigit octet)
    (before : Decoded) (rest : Octets) : readGroup (readGroup before row) rest = readGroup before (row ++ rest) := by
  have joined := @decode_append .stop row ⟨digits, even⟩ rest before.output
  simp only [readGroup, joined, Nat.add_assoc]

/-- Groups of digits in pairs are read like one group of all their digits. -/
theorem foldl_readGroup {rows : List Octets} (even : ∀ row ∈ rows, 2 ∣ row.length)
    (digits : ∀ row ∈ rows, ∀ octet ∈ row, IsDigit octet) (before : Decoded) :
    rows.foldl readGroup before = readGroup before rows.flatten := by
  induction rows generalizing before with
  | nil => rfl
  | cons row rows ih =>
    obtain ⟨evenRow, evenRows⟩ := List.forall_mem_cons.mp even
    obtain ⟨digitsRow, digitsRows⟩ := List.forall_mem_cons.mp digits
    rw [List.foldl_cons, ih evenRows digitsRows, readGroup_append evenRow digitsRow, List.flatten_cons]

theorem consumed_foldl_readGroup_le (rows : List Octets) (before : Decoded) :
    (rows.foldl readGroup before).consumed ≤ before.consumed + rows.flatten.length := by
  induction rows generalizing before with
  | nil => simp
  | cons row rows ih =>
    have first : (readGroup before row).consumed ≤ before.consumed + row.length :=
      Nat.add_le_add_left (consumed_le row _) _
    have later := ih (readGroup before row)
    rw [List.foldl_cons, List.flatten_cons, List.length_append]
    omega

/-- Groups that are read to the end of the last one are digits throughout. -/
theorem digits_of_foldl_readGroup {rows : List Octets} {before : Decoded}
    (all : (rows.foldl readGroup before).consumed = before.consumed + rows.flatten.length) :
    ∀ row ∈ rows, ∀ octet ∈ row, IsDigit octet := by
  induction rows generalizing before with
  | nil => simp
  | cons row rows ih =>
    -- No group can make up for octets that another one leaves.
    have first : (decode .stop row before.output).consumed ≤ row.length := consumed_le row _
    have later := consumed_foldl_readGroup_le rows (readGroup before row)
    have added : (readGroup before row).consumed = before.consumed + (decode .stop row before.output).consumed := rfl
    rw [List.foldl_cons, List.flatten_cons, List.length_append] at all
    refine List.forall_mem_cons.mpr ⟨?_, ?_⟩
    · have reached : (decode .stop row before.output).consumed = row.length := by omega
      exact digits_of_consumed reached
    · have rest : (rows.foldl readGroup (readGroup before row)).consumed =
          (readGroup before row).consumed + rows.flatten.length := by omega
      exact ih rest

/-! ## Reading what is written -/

/-- Where all groups of a text are digits, reading gives the octets that the
    digits are the written form of. -/
theorem readGroups_of_digits {text : Octets} (sized : text.length = textLength)
    (digits : ∀ row ∈ groups text, ∀ octet ∈ row, IsDigit octet) :
    ∃ octets, lowerCase (groups text).flatten = encode octets ∧
      readGroups text = { consumed := 32, output := octets } := by
  have even : 2 ∣ (groups text).flatten.length := by
    rw [length_flatten_groups sized]
    decide
  obtain ⟨octets, written⟩ := exists_encode_of_digits even (List.forall_mem_flatten.mpr digits)
  refine ⟨octets, written, ?_⟩
  rw [readGroups_eq, foldl_readGroup (even_groups sized) digits, readGroup, decode_of_lowerCase .stop written,
    length_flatten_groups sized]
  rfl

/-- A text that is read has its hyphens, and its groups are read to their ends, as
    the expansion of a UUID that cannot be shortened. -/
theorem readGroups_of_parse? {text : Octets} {uuid : Uuid} (accepted : parse? text = some uuid) :
    Hyphenated text ∧ uuid.Narrow ∧ readGroups text = { consumed := 32, output := uuid.expand.reverse } := by
  rw [parse?] at accepted
  split at accepted
  · rename_i hyphenated
    simp only at accepted
    split at accepted
    · rename_i complete
      obtain rfl := Option.some.inj accepted
      refine ⟨hyphenated, narrow_narrowest _ _, ?_⟩
      rw [expand_narrowest, List.reverse_reverse, ← complete.1]
    · cases accepted
  · cases accepted

theorem digits_of_readGroups {text : Octets} (sized : text.length = textLength)
    (all : (readGroups text).consumed = 32) : ∀ row ∈ groups text, ∀ octet ∈ row, IsDigit octet := by
  have reached : ((groups text).foldl readGroup { consumed := 0, output := [] }).consumed =
      0 + (groups text).flatten.length := by
    rw [← readGroups_eq, all, length_flatten_groups sized]
  exact digits_of_foldl_readGroup reached

/-- What a text is read as is written as the text in lower case. -/
theorem narrow_and_text_of_parse? {text : Octets} {uuid : Uuid} (accepted : parse? text = some uuid) :
    uuid.Narrow ∧ uuid.text = lowerCase text := by
  obtain ⟨hyphenated, narrow, read⟩ := readGroups_of_parse? accepted
  have digits := digits_of_readGroups hyphenated.1 (congrArg Decoded.consumed read)
  obtain ⟨octets, written, same⟩ := readGroups_of_digits hyphenated.1 digits
  obtain ⟨-, rfl⟩ := Decoded.mk.inj (read.symm.trans same)
  refine ⟨narrow, ?_⟩
  rw [text_eq_hyphenate, ← written, ← lowerCase_hyphenate, hyphenate_groups hyphenated]

/-- The text of a UUID is read in any letter case, as the narrowest UUID of that
    text. -/
theorem parse?_of_text_eq {text : Octets} {uuid : Uuid} (written : uuid.text = lowerCase text) :
    parse? text = some uuid.shorten := by
  rw [text_eq_hyphenate] at written
  have hyphenated : Hyphenated text := by
    rw [← hyphenated_lowerCase_iff, ← written]
    exact hyphenated_hyphenate (length_encode_expand uuid)
  have row : lowerCase (groups text).flatten = encode uuid.expand.reverse := by
    rw [lowerCase_groups, ← written, groups_hyphenate (length_encode_expand uuid)]
  have digits : ∀ row ∈ groups text, ∀ octet ∈ row, IsDigit octet := by
    intro group member octet inside
    exact isDigit_of_lowerCase row octet (List.mem_flatten.mpr ⟨group, member, inside⟩)
  obtain ⟨octets, same, read⟩ := readGroups_of_digits hyphenated.1 digits
  obtain rfl : octets = uuid.expand.reverse := encode_inj (same.symm.trans row)
  have complete : (readGroups text).consumed = 32 ∧ (readGroups text).output.length = 16 := by
    rw [read]
    exact ⟨rfl, by simp⟩
  have expanded : uuid.expand = (readGroups text).output.reverse := by rw [read, List.reverse_reverse]
  rw [parse?, if_pos hyphenated]
  exact (dif_pos complete).trans (congrArg some (narrowest_eq_shorten _ expanded))

/-- A text is read as a UUID exactly where it is the text of that UUID in some
    letter case and no narrower UUID has the text. -/
theorem parse?_eq_some_iff {text : Octets} {uuid : Uuid} :
    parse? text = some uuid ↔ uuid.Narrow ∧ uuid.text = lowerCase text := by
  constructor
  · exact narrow_and_text_of_parse?
  · rintro ⟨narrow, written⟩
    rw [parse?_of_text_eq written, (shorten_eq_self_iff uuid).mpr narrow]

theorem parseInto_eq_true_iff {text : Octets} {target uuid : Uuid} :
    parseInto text target = (true, uuid) ↔ parse? text = some uuid := by
  rw [parseInto]
  cases parse? text <;> simp

/-! ## All groups at once -/

theorem decode_skip_of_parse? {text : Octets} {uuid : Uuid} (accepted : parse? text = some uuid) :
    decode .skip text [] = { consumed := text.length, output := (readGroups text).output } := by
  obtain ⟨hyphenated, -, read⟩ := readGroups_of_parse? accepted
  have digits := digits_of_readGroups hyphenated.1 (congrArg Decoded.consumed read)
  have same : text.filterMap digit? = (groups text).flatten.filterMap digit? := by
    conv_lhs => rw [← hyphenate_groups hyphenated]
    exact filterMap_digit?_hyphenate (length_flatten_groups hyphenated.1)
  rw [decode_skip, same, readGroups_eq, foldl_readGroup (even_groups hyphenated.1) digits, readGroup,
    decode_of_digits .stop (List.forall_mem_flatten.mpr digits)]

/-- A text is read in two pieces, onto one output, as it is read at once, and as
    many octets of it are consumed: with reading that skips where the first piece
    has an even number of digits, and with reading that stops where it has nothing
    else. So the sixteen octets of the five groups of a text that is accepted,
    which are the expansion of the UUID from its most significant octet on, are
    those of one reading of all thirty-six octets that skips. -/
theorem decode_pieces :
    (∀ (nonDigit : NonDigit) (front back output : Octets),
        nonDigit = .skip ∧ 2 ∣ (front.filter (fun octet => IsDigit octet)).length ∨
          nonDigit = .stop ∧ (∀ octet ∈ front, IsDigit octet) ∧ 2 ∣ front.length →
        let first := decode nonDigit front output
        let second := decode nonDigit back first.output
        decode nonDigit (front ++ back) output =
          { consumed := first.consumed + second.consumed, output := second.output }) ∧
      ∀ text target uuid, parseInto text target = (true, uuid) →
        (readGroups text).output.length = 16 ∧ (readGroups text).output = uuid.expand.reverse ∧
        decode .skip (text.take 36) [] = { consumed := 36, output := (readGroups text).output } := by
  constructor
  · rintro nonDigit front back output (⟨rfl, even⟩ | ⟨rfl, digits, even⟩)
    · exact @decode_append .skip front even back output
    · exact @decode_append .stop front ⟨digits, even⟩ back output
  · intro text target uuid accepted
    have parsed := parseInto_eq_true_iff.mp accepted
    obtain ⟨⟨sized, -⟩, -, read⟩ := readGroups_of_parse? parsed
    have whole : text.take 36 = text := List.take_of_length_le (Nat.le_of_eq sized)
    refine ⟨?_, by rw [read], ?_⟩
    · simp [read]
    · rw [whole, decode_skip_of_parse? parsed, sized]
      rfl

def batteryText : Octets := Utf8.encode "0000180F-0000-1000-8000-00805f9B34fb".toList

/-- The digits `4A` with a blank between them and then `bC5`, and the digits `4A` and
    then `bC` with a blank behind them. -/
theorem decode_pieces_batteryText :
    2 ∣ ([0x34, 0x20, 0x41].filter (fun octet => IsDigit octet)).length ∧
      decode .skip ([0x34, 0x20, 0x41] ++ [0x62, 0x2D, 0x43, 0x35]) [7] =
        { consumed := 3 + 4, output := [7, 0x4A, 0xBC] } ∧
      (∀ octet ∈ [0x34, 0x41], IsDigit octet) ∧ 2 ∣ [0x34, 0x41].length ∧
      decode .stop ([0x34, 0x41] ++ [0x62, 0x43, 0x20]) [7] = { consumed := 2 + 2, output := [7, 0x4A, 0xBC] } ∧
      parseInto batteryText default = (true, ofUInt16 0x180F) ∧
      decode .skip (batteryText.take 36) [] = { consumed := 36, output := (readGroups batteryText).output } ∧
      (readGroups batteryText).output = (ofUInt16 0x180F).expand.reverse := by
  obtain ⟨pieces, texts⟩ := decode_pieces
  have even : 2 ∣ ([0x34, 0x20, 0x41].filter (fun octet => IsDigit octet)).length := by decide
  have digits : ∀ octet ∈ ([0x34, 0x41] : Octets), IsDigit octet := by decide +kernel
  have accepted : parseInto batteryText default = (true, ofUInt16 0x180F) := by decide +kernel
  obtain ⟨-, gathered, atOnce⟩ := texts _ _ _ accepted
  exact ⟨even, pieces .skip _ [0x62, 0x2D, 0x43, 0x35] [7] (.inl ⟨rfl, even⟩), digits, by decide,
    pieces .stop _ [0x62, 0x43, 0x20] [7] (.inr ⟨rfl, digits, by decide⟩), accepted, atOnce, gathered⟩

end BleAdvertising.Uuid
