import BleAdvertising.Hex
import BleAdvertising.Proofs.OctetNumbers
import Mathlib.Data.List.Basic
import Mathlib.Data.List.Induction
import Mathlib.Data.List.TakeWhile

/-!
# Reading and writing digits

A digit is read in either letter case and written in the lower one
(`digit?_eq_some_iff`), and an octet is written as the two digits that it joins.
A reader takes up one digit after the other, and what it holds depends on the
digits alone: the octets of the pairs, and a last digit that waits for its
partner (`foldl_push`). Reading that stops takes up the digits in front of the
first other octet (`run_stop`), and reading that skips takes up all of them
(`run_skip`). The written form of octets is read as the octets
(`decode_of_lowerCase`), and digits in pairs are the written form of the octets
they are read as, up to letter case (`encode_pairs_of_digits`). A text is read in
two pieces as it is read at once where no digit waits at the end of the first one
(`decode_append`).
-/
namespace BleAdvertising.Hex

/-! ## Letter case -/

def lowerOctet (octet : UInt8) : UInt8 := if 0x41 ≤ octet ∧ octet ≤ 0x5A then octet + 0x20 else octet

/-- A text with each letter from A to Z in lower case. -/
def lowerCase (text : Octets) : Octets := text.map lowerOctet

/-- Octets `0` to `9` and `a` to `f`. -/
def IsLowerDigit (octet : UInt8) : Prop := 0x30 ≤ octet ∧ octet ≤ 0x39 ∨ 0x61 ≤ octet ∧ octet ≤ 0x66

instance (octet : UInt8) : Decidable (IsLowerDigit octet) := inferInstanceAs (Decidable (_ ∨ _))

/-- Octets `0` to `9`, `a` to `f` and `A` to `F`. -/
def IsDigit (octet : UInt8) : Prop := IsLowerDigit octet ∨ 0x41 ≤ octet ∧ octet ≤ 0x46

instance (octet : UInt8) : Decidable (IsDigit octet) := inferInstanceAs (Decidable (_ ∨ _))

theorem isSome_digit?_iff (octet : UInt8) : (digit? octet).isSome ↔ IsDigit octet := by
  revert octet
  decide +kernel

theorem exists_digit? {octet : UInt8} (digit : IsDigit octet) : ∃ found, digit? octet = some found :=
  Option.isSome_iff_exists.mp ((isSome_digit?_iff octet).mpr digit)

theorem digit?_eq_none {octet : UInt8} (other : ¬ IsDigit octet) : digit? octet = none := by
  rw [← isSome_digit?_iff, Option.not_isSome_iff_eq_none] at other
  exact other

@[simp] theorem digit?_lowerOctet (octet : UInt8) : digit? (lowerOctet octet) = digit? octet := by
  revert octet
  decide +kernel

theorem lowerOctet_of_digit? (octet : UInt8) : ∀ digit ∈ digit? octet, lowerOctet octet = spell digit := by
  revert octet
  decide +kernel

theorem digit?_eq_some_iff (octet : UInt8) (digit : Fin 16) : digit? octet = some digit ↔ lowerOctet octet = spell digit := by
  constructor
  · exact lowerOctet_of_digit? octet digit
  · intro spelled
    rw [← digit?_lowerOctet, spelled, digit?_spell]

theorem isLowerDigit_spell (digit : Fin 16) : IsLowerDigit (spell digit) := by
  revert digit
  decide

theorem IsLowerDigit.lowerOctet_eq {octet : UInt8} (lower : IsLowerDigit octet) : lowerOctet octet = octet := by
  revert octet
  decide +kernel

@[simp] theorem isDigit_lowerOctet_iff (octet : UInt8) : IsDigit (lowerOctet octet) ↔ IsDigit octet := by
  rw [← isSome_digit?_iff, ← isSome_digit?_iff, digit?_lowerOctet]

/-! ## Octets and their two digits -/

theorem join_halves (octet : UInt8) : join (Fin.ofNat 16 (octet.toNat / 16)) (Fin.ofNat 16 octet.toNat) = octet := by
  revert octet
  decide +kernel

theorem toNat_join (high low : Fin 16) : (join high low).toNat = 16 * high.val + low.val := by
  have bounded : 16 * high.val + low.val < 256 := by omega
  exact UInt8.toNat_ofNat_of_lt' bounded

@[simp] theorem encodeOctet_join (high low : Fin 16) : encodeOctet (join high low) = [spell high, spell low] := by
  revert high low
  decide +kernel

@[simp] theorem encode_nil : encode [] = [] := rfl

@[simp] theorem encode_cons (octet : UInt8) (rest : Octets) :
    encode (octet :: rest) = encodeOctet octet ++ encode rest := List.flatMap_cons

@[simp] theorem encode_append (front back : Octets) : encode (front ++ back) = encode front ++ encode back :=
  List.flatMap_append

theorem isLowerDigit_of_mem_encode {octets : Octets} {octet : UInt8} (member : octet ∈ encode octets) :
    IsLowerDigit octet := by
  obtain ⟨written, _, spelled⟩ := List.mem_flatMap.mp member
  rcases List.mem_cons.mp spelled with rfl | spelled
  · exact isLowerDigit_spell _
  · rw [List.mem_singleton.mp spelled]
    exact isLowerDigit_spell _

@[simp] theorem length_lowerCase (text : Octets) : (lowerCase text).length = text.length := List.length_map lowerOctet

theorem lowerCase_eq_self {text : Octets} (lower : ∀ octet ∈ text, IsLowerDigit octet) : lowerCase text = text := by
  have same : text.map lowerOctet = text.map id :=
    List.map_congr_left (fun octet member => (lower octet member).lowerOctet_eq)
  rw [lowerCase, same, List.map_id]

/-! ## The digits of a text -/

@[simp] theorem filterMap_digit?_lowerCase (text : Octets) :
    (lowerCase text).filterMap digit? = text.filterMap digit? := by
  rw [lowerCase, List.filterMap_map]
  simp only [Function.comp_def, digit?_lowerOctet]

@[simp] theorem filterMap_digit?_encodeOctet (octet : UInt8) : (encodeOctet octet).filterMap digit? =
    [Fin.ofNat 16 (octet.toNat / 16), Fin.ofNat 16 octet.toNat] := by
  simp [encodeOctet]

/-! ## The number of a text -/

/-- The number that the digits of a text denote, most significant digit first.
    Octets that are no digits say nothing. -/
def number (text : Octets) : Nat := (text.filterMap digit?).foldl (fun number digit => 16 * number + digit.val) 0

@[simp] theorem number_lowerCase (text : Octets) : number (lowerCase text) = number text := by
  simp [number]

theorem number_encode (octets : Octets) : number (encode octets) = Octets.littleEndian octets.reverse := by
  induction octets using List.reverseRecOn with
  | nil => rfl
  | append_singleton octets octet ih =>
    have bounded := octet.toNat_lt
    rw [number] at ih
    simp [number, Octets.littleEndian, ih]
    omega

/-! ## Digits in pairs -/

/-- The octets of digits in pairs, high digit first. A last digit without a
    partner gives none. -/
def pairs : List (Fin 16) → Octets
  | high :: low :: rest => join high low :: pairs rest
  | _ => []

@[simp] theorem length_pairs (digits : List (Fin 16)) : (pairs digits).length = digits.length / 2 := by
  induction digits using List.twoStepInduction with
  | nil => rfl
  | singleton digit => simp [pairs]
  | cons_cons high low rest ih _ =>
    rw [pairs, List.length_cons, ih, List.length_cons, List.length_cons]
    omega

theorem getElem?_pairs (digits : List (Fin 16)) (place : Nat) : (pairs digits)[place]? =
    (digits[2 * place]?).bind fun high => (digits[2 * place + 1]?).map (join high) := by
  induction digits using List.twoStepInduction generalizing place with
  | nil => rfl
  | singleton digit => cases place <;> rfl
  | cons_cons high low rest ih _ =>
    cases place with
    | zero => rfl
    | succ place =>
      rw [pairs, List.getElem?_cons_succ, ih]
      rfl

/-- Between two octets nothing waits, and after an odd number of digits the last
    one does. -/
theorem foldl_push (output : Octets) (digits : List (Fin 16)) :
    digits.foldl Reader.push { output := output } =
      { pending := if 2 ∣ digits.length then none else digits.getLast?, output := output ++ pairs digits } := by
  induction digits using List.twoStepInduction generalizing output with
  | nil => simp [pairs]
  | singleton digit => simp [pairs, Reader.push]
  | cons_cons high low rest ih _ =>
    have first : Reader.push (Reader.push { output := output } high) low = { output := output ++ [join high low] } := rfl
    rw [List.foldl_cons, List.foldl_cons, first, ih, pairs, List.append_assoc, List.singleton_append, List.length_cons,
      List.length_cons]
    by_cases even : 2 ∣ rest.length
    · have evenAll : 2 ∣ rest.length + 1 + 1 := by omega
      rw [if_pos even, if_pos evenAll]
    · have oddAll : ¬ 2 ∣ rest.length + 1 + 1 := by omega
      rw [if_neg even, if_neg oddAll]
      cases rest with
      | nil => exact absurd (Nat.dvd_zero 2) even
      | cons digit rest => rfl

/-! ## What a reader takes up -/

/-- The digits in front of the first octet that is none. -/
def leading (text : Octets) : Octets := text.takeWhile (fun octet => IsDigit octet)

theorem leading_cons_of_isDigit {octet : UInt8} (digit : IsDigit octet) (rest : Octets) :
    leading (octet :: rest) = octet :: leading rest := by
  rw [leading, List.takeWhile_cons_of_pos (by simpa using digit), leading]

theorem leading_cons_of_not_isDigit {octet : UInt8} (other : ¬ IsDigit octet) (rest : Octets) :
    leading (octet :: rest) = [] := by
  rw [leading, List.takeWhile_cons_of_neg (by simpa using other)]

theorem leading_eq_self_iff {text : Octets} : leading text = text ↔ ∀ octet ∈ text, IsDigit octet := by
  rw [leading, List.takeWhile_eq_self_iff]
  simp only [decide_eq_true_iff]

theorem leading_append_of_digits {front : Octets} (digits : ∀ octet ∈ front, IsDigit octet) (back : Octets) :
    leading (front ++ back) = front ++ leading back :=
  List.takeWhile_append_of_pos (by simpa using digits)

theorem leading_eq_take (text : Octets) : leading text = text.take (leading text).length :=
  List.prefix_iff_eq_take.mp (List.takeWhile_prefix _)

theorem isDigit_of_mem_leading {text : Octets} {octet : UInt8} (member : octet ∈ leading text) : IsDigit octet := by
  simpa using List.mem_takeWhile_imp member

/-- No longer part of a text, from its start on, is of digits only. -/
theorem forall_mem_take_iff {text : Octets} {count : Nat} (inside : count ≤ text.length) :
    (∀ octet ∈ text.take count, IsDigit octet) ↔ count ≤ (leading text).length := by
  constructor
  · intro digits
    have front : leading text = text.take count ++ leading (text.drop count) := by
      conv_lhs => rw [← List.take_append_drop count text]
      exact leading_append_of_digits digits _
    rw [front, List.length_append, List.length_take_of_le inside]
    exact Nat.le_add_right _ _
  · intro short octet member
    have front : text.take count <+: leading text := by
      rw [leading_eq_take text]
      exact List.take_prefix_take_left short
    exact isDigit_of_mem_leading (front.mem member)

/-- Reading that stops takes up the digits in front. -/
theorem run_stop (reader : Reader) (text : Octets) : reader.run .stop text =
    ((leading text).length, ((leading text).filterMap digit?).foldl Reader.push reader) := by
  induction text generalizing reader with
  | nil => rfl
  | cons octet rest ih =>
    by_cases isDigit : IsDigit octet
    · obtain ⟨digit, found⟩ := exists_digit? isDigit
      simp only [Reader.run, found, ih, leading_cons_of_isDigit isDigit, List.length_cons,
        List.filterMap_cons_some found, List.foldl_cons]
    · simp [Reader.run, digit?_eq_none isDigit, leading_cons_of_not_isDigit isDigit]

/-- Reading that skips takes up every digit. -/
theorem run_skip (reader : Reader) (text : Octets) :
    reader.run .skip text = (text.length, (text.filterMap digit?).foldl Reader.push reader) := by
  induction text generalizing reader with
  | nil => rfl
  | cons octet rest ih =>
    by_cases isDigit : IsDigit octet
    · obtain ⟨digit, found⟩ := exists_digit? isDigit
      simp only [Reader.run, found, ih, List.length_cons, List.filterMap_cons_some found, List.foldl_cons]
    · have found := digit?_eq_none isDigit
      simp only [Reader.run, found, ih, List.length_cons, List.filterMap_cons_none found]

theorem decode_stop (text output : Octets) : decode .stop text output =
    { consumed := (leading text).length, output := output ++ pairs ((leading text).filterMap digit?) } := by
  simp only [decode, run_stop, foldl_push]

theorem decode_skip (text output : Octets) : decode .skip text output =
    { consumed := text.length, output := output ++ pairs (text.filterMap digit?) } := by
  simp only [decode, run_skip, foldl_push]

/-- A text of digits is read in the same way in either mode. -/
theorem decode_of_digits (nonDigit : NonDigit) {text : Octets} (digits : ∀ octet ∈ text, IsDigit octet)
    (output : Octets) :
    decode nonDigit text output = { consumed := text.length, output := output ++ pairs (text.filterMap digit?) } := by
  cases nonDigit with
  | stop => rw [decode_stop, leading_eq_self_iff.mpr digits]
  | skip => exact decode_skip text output

theorem consumed_le (text output : Octets) : (decode .stop text output).consumed ≤ text.length := by
  rw [decode_stop]
  exact (List.takeWhile_prefix _).length_le

/-- Reading that stops reaches the end of digits only. -/
theorem digits_of_consumed {text output : Octets} (all : (decode .stop text output).consumed = text.length) :
    ∀ octet ∈ text, IsDigit octet := by
  have reached : (leading text).length = text.length := by rwa [decode_stop] at all
  rw [← leading_eq_self_iff, leading_eq_take, reached, List.take_length]

@[simp] theorem filterMap_digit?_filter (text : Octets) :
    (text.filter (fun octet => IsDigit octet)).filterMap digit? = text.filterMap digit? := by
  rw [List.filterMap_filter]
  apply List.filterMap_congr
  intro octet _
  by_cases isDigit : IsDigit octet
  · simp [isDigit]
  · simp [isDigit, digit?_eq_none isDigit]

/-! ## What is read -/

/-- The digits in lower case, least first. -/
def digitOctets : Octets :=
  [0x30, 0x31, 0x32, 0x33, 0x34, 0x35, 0x36, 0x37, 0x38, 0x39, 0x61, 0x62, 0x63, 0x64, 0x65, 0x66]

/-- The number of a digit in either letter case: its place among the digits. -/
def digitValue (octet : UInt8) : Nat := digitOctets.idxOf (lowerOctet octet)

theorem val_of_digit? (octet : UInt8) : ∀ digit ∈ digit? octet, digit.val = digitValue octet := by
  revert octet
  decide +kernel

/-- Octets read from digits: half as many, each of them sixteen times the number
    of its first digit and the number of its second one. -/
structure Paired (digits octets : Octets) : Prop where
  counted : octets.length = digits.length / 2
  joined : ∀ (place : Nat) (inside : 2 * place + 1 < digits.length), (octets[place]?).map UInt8.toNat =
    some (16 * digitValue digits[2 * place] + digitValue digits[2 * place + 1])

/-- Each digit has its own place among the digits that are taken up. -/
theorem map_some_filterMap_digit? {text : Octets} (digits : ∀ octet ∈ text, IsDigit octet) :
    (text.filterMap digit?).map some = text.map digit? := by
  induction text with
  | nil => rfl
  | cons octet rest ih =>
    obtain ⟨first, later⟩ := List.forall_mem_cons.mp digits
    obtain ⟨digit, found⟩ := exists_digit? first
    rw [List.filterMap_cons_some found, List.map_cons, List.map_cons, ih later, found]

theorem length_filterMap_digit? {text : Octets} (digits : ∀ octet ∈ text, IsDigit octet) :
    (text.filterMap digit?).length = text.length := by
  have counted := congrArg List.length (map_some_filterMap_digit? digits)
  rwa [List.length_map, List.length_map] at counted

theorem getElem?_filterMap_digit? {text : Octets} (digits : ∀ octet ∈ text, IsDigit octet) {place : Nat}
    (inside : place < text.length) :
    ∃ digit, (text.filterMap digit?)[place]? = some digit ∧ digit.val = digitValue text[place] := by
  obtain ⟨digit, found⟩ := exists_digit? (digits text[place] (List.getElem_mem inside))
  have taken := congrArg (·[place]?) (map_some_filterMap_digit? digits)
  simp only [List.getElem?_map, List.getElem?_eq_getElem inside, Option.map_some, found] at taken
  obtain ⟨own, here, same⟩ := Option.map_eq_some_iff.mp taken
  obtain rfl := Option.some.inj same
  exact ⟨own, here, val_of_digit? text[place] own found⟩

theorem paired_pairs {text : Octets} (digits : ∀ octet ∈ text, IsDigit octet) :
    Paired text (pairs (text.filterMap digit?)) where
  counted := by simp [length_filterMap_digit? digits]
  joined := by
    intro place inside
    obtain ⟨high, isHigh, highValue⟩ := getElem?_filterMap_digit? digits (Nat.lt_of_succ_lt inside)
    obtain ⟨low, isLow, lowValue⟩ := getElem?_filterMap_digit? digits inside
    rw [getElem?_pairs, isHigh, isLow, ← highValue, ← lowValue, ← toNat_join]
    rfl

/-- Of the first octets of an input, reading that stops takes the longest part of
    digits and puts the octets of its pairs behind the output. Reading that skips
    takes all octets and puts there what the digits among them give by
    themselves. A last digit without a partner gives nothing in either mode. -/
theorem decode_take {length : Nat} {input : Octets} (inside : length ≤ input.length) (output : Octets) :
    (∃ taken decoded, decode .stop (input.take length) output = { consumed := taken, output := output ++ decoded } ∧
        taken ≤ length ∧ (∀ count ≤ length, ((∀ octet ∈ input.take count, IsDigit octet) ↔ count ≤ taken)) ∧
        Paired (input.take taken) decoded) ∧
      ∃ decoded, decode .skip (input.take length) output = { consumed := length, output := output ++ decoded } ∧
        Paired ((input.take length).filter (fun octet => IsDigit octet)) decoded ∧
        ∀ other, (decode .stop ((input.take length).filter (fun octet => IsDigit octet)) other).output =
          other ++ decoded := by
  have sized : (input.take length).length = length := List.length_take_of_le inside
  have bounded : (leading (input.take length)).length ≤ length :=
    Nat.le_trans (List.takeWhile_prefix _).length_le (Nat.le_of_eq sized)
  constructor
  · refine ⟨_, _, decode_stop _ output, bounded, ?_, ?_⟩
    · intro count short
      have first : input.take count = (input.take length).take count := by
        rw [List.take_take, Nat.min_eq_left short]
      rw [first]
      exact forall_mem_take_iff (sized.symm ▸ short)
    · have front : input.take (leading (input.take length)).length = leading (input.take length) := by
        conv_rhs => rw [leading_eq_take, List.take_take, Nat.min_eq_left bounded]
      rw [front]
      exact paired_pairs fun _ => isDigit_of_mem_leading
  · have digits : ∀ octet ∈ (input.take length).filter (fun octet => IsDigit octet), IsDigit octet := by
      intro octet member
      simpa using (List.mem_filter.mp member).2
    refine ⟨pairs ((input.take length).filterMap digit?), ?_, ?_, ?_⟩
    · rw [decode_skip, sized]
    · rw [← filterMap_digit?_filter]
      exact paired_pairs digits
    · intro other
      simp [decode_of_digits .stop digits]

/-- Digits in either letter case, with a blank, a NUL and an octet `0xFF` between
    them. -/
def broken : Octets := [0x34, 0x41, 0x62, 0x20, 0x43, 0x00, 0xFF, 0x64, 0x35]

/-- Three digits stand in front, and the first eight octets have five. The last one
    gives nothing in either mode. -/
theorem decode_take_broken : 8 ≤ broken.length ∧
    decode .stop (broken.take 8) [7] = { consumed := 3, output := [7, 0x4A] } ∧
    (∀ count ≤ 8, ((∀ octet ∈ broken.take count, IsDigit octet) ↔ count ≤ 3)) ∧
    Paired [0x34, 0x41, 0x62] [0x4A] ∧
    decode .skip (broken.take 8) [7] = { consumed := 8, output := [7, 0x4A, 0xBC] } ∧
    Paired [0x34, 0x41, 0x62, 0x43, 0x64] [0x4A, 0xBC] := by
  have inside : 8 ≤ broken.length := by decide
  obtain ⟨⟨taken, decoded, stopped, -, longest, front⟩, others, skipped, all, -⟩ := decode_take inside [7]
  have stops : decode .stop (broken.take 8) [7] = { consumed := 3, output := [7] ++ [0x4A] } := by decide
  have skips : decode .skip (broken.take 8) [7] = { consumed := 8, output := [7] ++ [0x4A, 0xBC] } := by decide
  obtain ⟨rfl, same⟩ := Decoded.mk.inj (stopped.symm.trans stops)
  obtain rfl := List.append_cancel_left same
  obtain ⟨-, same⟩ := Decoded.mk.inj (skipped.symm.trans skips)
  obtain rfl := List.append_cancel_left same
  exact ⟨inside, stops, longest, front, skips, all⟩

/-! ## Reading what is written -/

@[simp] theorem pairs_filterMap_encode (octets : Octets) : pairs ((encode octets).filterMap digit?) = octets := by
  induction octets with
  | nil => rfl
  | cons octet octets ih =>
    simp only [encode_cons, List.filterMap_append, filterMap_digit?_encodeOctet, List.cons_append, List.nil_append, pairs,
      join_halves, ih]

theorem isDigit_of_lowerCase {input octets : Octets} (written : lowerCase input = encode octets) :
    ∀ octet ∈ input, IsDigit octet := by
  intro octet member
  have lowered : lowerOctet octet ∈ encode octets := written ▸ List.mem_map_of_mem member
  exact (isDigit_lowerOctet_iff octet).mp (.inl (isLowerDigit_of_mem_encode lowered))

/-- The written form of octets is read as the octets, in any letter case. -/
theorem decode_of_lowerCase (nonDigit : NonDigit) {input octets : Octets} (written : lowerCase input = encode octets)
    (output : Octets) :
    decode nonDigit input output = { consumed := input.length, output := output ++ octets } := by
  rw [decode_of_digits nonDigit (isDigit_of_lowerCase written), ← filterMap_digit?_lowerCase, written,
    pairs_filterMap_encode]

@[simp] theorem lowerCase_encode (octets : Octets) : lowerCase (encode octets) = encode octets :=
  lowerCase_eq_self fun _ => isLowerDigit_of_mem_encode

/-- Octets are known from their written form. -/
theorem encode_inj {first second : Octets} (same : encode first = encode second) : first = second := by
  rw [← pairs_filterMap_encode first, same, pairs_filterMap_encode]

/-! ## Writing what is read -/

theorem encode_pairs {digits : List (Fin 16)} (even : 2 ∣ digits.length) : encode (pairs digits) = digits.map spell := by
  induction digits using List.twoStepInduction with
  | nil => rfl
  | singleton digit => simp at even
  | cons_cons high low rest ih _ =>
    have evenRest : 2 ∣ rest.length := by
      simp only [List.length_cons] at even
      omega
    rw [pairs, encode_cons, encodeOctet_join, ih evenRest]
    rfl

theorem map_spell_filterMap_digit? {text : Octets} (digits : ∀ octet ∈ text, IsDigit octet) :
    (text.filterMap digit?).map spell = lowerCase text := by
  induction text with
  | nil => rfl
  | cons octet rest ih =>
    obtain ⟨first, later⟩ := List.forall_mem_cons.mp digits
    obtain ⟨digit, found⟩ := exists_digit? first
    rw [List.filterMap_cons_some found, List.map_cons, ih later, ← (digit?_eq_some_iff octet digit).mp found]
    rfl

/-- Digits in pairs are the written form of the octets they are read as. -/
theorem encode_pairs_of_digits {text : Octets} (even : 2 ∣ text.length) (digits : ∀ octet ∈ text, IsDigit octet) :
    encode (pairs (text.filterMap digit?)) = lowerCase text := by
  rw [← length_filterMap_digit? digits] at even
  rw [encode_pairs even, map_spell_filterMap_digit? digits]

/-- Digits in pairs are the written form of some octets. -/
theorem exists_encode_of_digits {text : Octets} (even : 2 ∣ text.length) (digits : ∀ octet ∈ text, IsDigit octet) :
    ∃ octets, lowerCase text = encode octets :=
  ⟨_, (encode_pairs_of_digits even digits).symm⟩

/-! ## Octets between the digits -/

/-- A text with octets that are no digits put in anywhere. -/
inductive Noisy : Octets → Octets → Prop where
  | nil : Noisy [] []
  | keep (octet : UInt8) {text noisy : Octets} (rest : Noisy text noisy) : Noisy (octet :: text) (octet :: noisy)
  | insert {octet : UInt8} (other : ¬ IsDigit octet) {text noisy : Octets} (rest : Noisy text noisy) :
    Noisy text (octet :: noisy)

theorem Noisy.filterMap_digit? {text noisy : Octets} (spread : Noisy text noisy) :
    noisy.filterMap digit? = text.filterMap digit? := by
  induction spread with
  | nil => rfl
  | keep octet _ ih => rw [List.filterMap_cons, List.filterMap_cons, ih]
  | insert other _ ih => rw [List.filterMap_cons_none (digit?_eq_none other), ih]

/-- The written form of octets is read as the octets in either mode. A text of
    digits in pairs is read as octets whose written form is the text in lower
    case, and reading that skips gives them also where other octets stand between
    the digits. -/
theorem decode_encode (nonDigit : NonDigit) (octets text output : Octets) :
    decode nonDigit (encode octets) output = { consumed := 2 * octets.length, output := output ++ octets } ∧
      ((∀ octet ∈ text, IsDigit octet) → 2 ∣ text.length →
        ∃ decoded, decode nonDigit text output = { consumed := text.length, output := output ++ decoded } ∧
          encode decoded = lowerCase text ∧
          ∀ noisy, Noisy text noisy →
            decode .skip noisy output = { consumed := noisy.length, output := output ++ decoded }) := by
  constructor
  · simp [decode_of_lowerCase nonDigit (lowerCase_encode octets)]
  · intro digits even
    refine ⟨pairs (text.filterMap digit?), decode_of_digits nonDigit digits output, encode_pairs_of_digits even digits,
      ?_⟩
    intro noisy spread
    rw [decode_skip, spread.filterMap_digit?]

/-- The digits `0aF3`. -/
def mixedDigits : Octets := [0x30, 0x61, 0x46, 0x33]

/-- The same with a colon, a NUL, an octet `0xFF` and a newline put in. -/
def noisyDigits : Octets := [0x3A, 0x30, 0x00, 0x61, 0x46, 0xFF, 0x33, 0x0A]

theorem decode_encode_mixedDigits : (∀ octet ∈ mixedDigits, IsDigit octet) ∧ 2 ∣ mixedDigits.length ∧
    Noisy mixedDigits noisyDigits ∧
    decode .stop mixedDigits [7] = { consumed := 4, output := [7, 0x0A, 0xF3] } ∧
    decode .skip noisyDigits [7] = { consumed := 8, output := [7, 0x0A, 0xF3] } ∧
    encode [0x0A, 0xF3] = lowerCase mixedDigits := by
  have digits : ∀ octet ∈ mixedDigits, IsDigit octet := by decide +kernel
  have even : 2 ∣ mixedDigits.length := by decide
  have spread : Noisy mixedDigits noisyDigits :=
    .insert (by decide) (.keep _ (.insert (by decide) (.keep _ (.keep _ (.insert (by decide) (.keep _
      (.insert (by decide) .nil)))))))
  have reads : decode .stop mixedDigits [7] = { consumed := 4, output := [7] ++ [0x0A, 0xF3] } := by decide
  obtain ⟨decoded, read, written, skipped⟩ := (decode_encode .stop [] mixedDigits [7]).2 digits even
  obtain ⟨-, same⟩ := Decoded.mk.inj (read.symm.trans reads)
  obtain rfl := List.append_cancel_left same
  exact ⟨digits, even, spread, reads, skipped noisyDigits spread, written⟩

/-! ## Reading in pieces -/

theorem pairs_append {front : List (Fin 16)} (even : 2 ∣ front.length) (back : List (Fin 16)) :
    pairs (front ++ back) = pairs front ++ pairs back := by
  induction front using List.twoStepInduction with
  | nil => rfl
  | singleton digit => simp at even
  | cons_cons high low rest ih _ =>
    have evenRest : 2 ∣ rest.length := by
      simp only [List.length_cons] at even
      omega
    rw [List.cons_append, List.cons_append, pairs, pairs, ih evenRest, List.cons_append]

/-- Reading takes up all of a text, and no digit waits at its end. -/
def Closed (text : Octets) : NonDigit → Prop
  | .stop => (∀ octet ∈ text, IsDigit octet) ∧ 2 ∣ text.length
  | .skip => 2 ∣ (text.filter (fun octet => IsDigit octet)).length

theorem decode_append {nonDigit : NonDigit} {front : Octets} (closed : Closed front nonDigit) (back output : Octets) :
    let first := decode nonDigit front output
    let second := decode nonDigit back first.output
    decode nonDigit (front ++ back) output =
      { consumed := first.consumed + second.consumed, output := second.output } := by
  cases nonDigit with
  | stop =>
    obtain ⟨digits, even⟩ := closed
    rw [← length_filterMap_digit? digits] at even
    simp only [decode_stop, leading_append_of_digits digits, leading_eq_self_iff.mpr digits, List.length_append,
      List.filterMap_append, pairs_append even, List.append_assoc]
  | skip =>
    have digits : ∀ octet ∈ front.filter (fun octet => IsDigit octet), IsDigit octet := by
      intro octet member
      simpa using (List.mem_filter.mp member).2
    have even : 2 ∣ (front.filterMap digit?).length := by
      rw [← filterMap_digit?_filter, length_filterMap_digit? digits]
      exact closed
    simp only [decode_skip, List.length_append, List.filterMap_append, pairs_append even, List.append_assoc]

end BleAdvertising.Hex
