import BleAdvertising.Proofs.Utf8Characters

/-!
# What the check reads

The check goes from character to character, and inside a character from octet to
octet. Before it reads what a first octet announces it has compared this with the
octets that are left, so all that it does is told by the octets below the length
(`check_within`). Each passage of the loop moves the offset on (`Passes.bounds`),
and the last one comes before there are more of them than octets.
-/
namespace BleAdvertising.Utf8

variable {buffer : Buffer} {length offset : Nat}

/-! ## Readers -/

/-- The buffer has every octet below the bound that another one has. -/
def Buffer.Covers (whole buffer : Buffer) (bound : Nat) : Prop :=
  ∀ index < bound, ∀ octet, buffer index = some octet → whole index = some octet

variable {α β : Type} {bound : Nat} {read : Buffer → Except Fault α}

/-- What a reader does with a buffer is told by the octets below a bound. -/
inductive Within (bound : Nat) (read : Buffer → Except Fault α) (buffer : Buffer) : Prop where
  /-- It comes to an octet that is not there. -/
  | missing {index : Nat} (below : index < bound) (absent : buffer index = none)
    (faulted : read buffer = .error (.outside index))
  /-- It comes to no such octet, and others do not matter. -/
  | found (sound : ∀ index, read buffer ≠ .error (.outside index))
    (same : ∀ whole : Buffer, whole.Covers buffer bound → read whole = read buffer)

theorem Within.done {result : Except Fault α} (sound : ∀ index, result ≠ .error (.outside index)) :
    Within bound (fun _ => result) buffer := .found sound fun _ _ => rfl

theorem Within.octet {place : Nat} {next : UInt8 → Buffer → Except Fault α} (below : place < bound)
    (rest : ∀ octet, Within bound (next octet) buffer) :
    Within bound (fun buffer => match buffer place with
      | none => .error (.outside place)
      | some octet => next octet buffer) buffer := by
  cases here : buffer place with
  | none => exact .missing below here (by simp only [here])
  | some octet =>
    cases rest octet with
    | missing low absent faulted => exact .missing low absent (by simp only [here, faulted])
    | found sound same =>
      refine .found (by simpa only [here] using sound) ?_
      intro whole covers
      simp only [here, covers place below octet here, same whole covers]

theorem Within.andThen {whole : Buffer → Except Fault β} {next : α → Buffer → Except Fault β}
    (first : Within bound read buffer)
    (failed : ∀ buffer fault, read buffer = .error fault → whole buffer = .error fault)
    (passed : ∀ buffer value, read buffer = .ok value → whole buffer = next value buffer)
    (rest : ∀ value, Within bound (next value) buffer) : Within bound whole buffer := by
  cases first with
  | missing low absent faulted => exact .missing low absent (failed buffer _ faulted)
  | found sound same =>
    cases ended : read buffer with
    | error fault =>
      have wrong := failed buffer fault ended
      refine .found ?_ ?_
      · intro index same
        cases wrong.symm.trans same
        exact sound index ended
      · intro other covers
        rw [wrong, failed other fault ((same other covers).trans ended)]
    | ok value =>
      have right := passed buffer value ended
      cases rest value with
      | missing low absent faulted => exact .missing low absent (right.trans faulted)
      | found soundRest sameRest =>
        refine .found (right ▸ soundRest) ?_
        intro other covers
        rw [right, passed other value ((same other covers).trans ended), sameRest other covers]

/-! ## The reads of the check -/

theorem continuations_within {start count : Nat} (enough : start + count ≤ bound) (code : UInt32) :
    Within bound (fun buffer => continuations buffer start count code) buffer := by
  induction count generalizing start code with
  | zero => exact .done (by simp)
  | succ count ih =>
    simp only [continuations]
    refine .octet (by omega) ?_
    intro octet
    by_cases continued : isContinuation octet
    · simp only [if_pos continued]
      exact ih (by omega) _
    · simp only [if_neg continued]
      exact .done (by simp)

/-- What follows a first octet is read only where the octets that are left are
    enough. -/
theorem character_within (inside : offset < length) :
    Within length (fun buffer => character buffer length offset) buffer := by
  simp only [character]
  refine .octet inside ?_
  intro octet
  cases lead? octet with
  | none => exact .done (by simp)
  | some lead =>
    by_cases short : length - offset ≤ lead.follow
    · simp only [if_pos short]
      exact .done (by simp)
    · simp only [if_neg short]
      have announced : offset + 1 + lead.follow ≤ length := by omega
      have judged (code : UInt32) : Within length (fun _ =>
          if allowed lead.least code then Except.ok lead.follow else .error .illFormed) buffer := by
        refine .done ?_
        intro index
        split <;> simp
      refine (continuations_within announced lead.bits).andThen ?_ ?_ judged
      · intro buffer fault failed
        simp only [failed]
      · intro buffer code read
        simp only [read]

theorem check_of_failed {fault : Fault} (inside : offset < length)
    (failed : character buffer length offset = .error fault) : check buffer length offset = .error fault := by
  rw [check, if_pos inside, failed]

theorem check_of_passed {follow : Nat} (inside : offset < length)
    (passed : character buffer length offset = .ok follow) :
    check buffer length offset = check buffer length (offset + follow + 1) := by
  rw [check, if_pos inside, passed]

theorem check_of_not_lt (outside : ¬ offset < length) : check buffer length offset = .ok () := by
  rw [check, if_neg outside]

theorem check_within (buffer : Buffer) (length offset : Nat) :
    Within length (fun buffer => check buffer length offset) buffer := by
  by_cases inside : offset < length
  · exact (character_within inside).andThen (fun _ _ => check_of_failed inside) (fun _ _ => check_of_passed inside)
      fun follow => check_within buffer length (offset + follow + 1)
  · simp only [check_of_not_lt inside]
    exact .done (by simp)
termination_by length - offset

/-- The buffer without the octet of one index. -/
def Buffer.without (buffer : Buffer) (hidden : Nat) : Buffer :=
  fun index => if index = hidden then none else buffer index

/-- The check reads an index: with no octet there it faults at that index. -/
def Reads (buffer : Buffer) (length index : Nat) : Prop :=
  check (buffer.without index) length 0 = .error (.outside index)

instance (buffer : Buffer) (length index : Nat) : Decidable (Reads buffer length index) :=
  inferInstanceAs (Decidable (_ = _))

theorem lt_of_reads {index : Nat} (reads : Reads buffer length index) : index < length := by
  cases check_within (buffer.without index) length 0 with
  | missing below absent faulted =>
    cases faulted.symm.trans reads
    exact below
  | found sound same => exact absurd reads (sound index)

section Stored

variable (stored : ∀ index < length, buffer index ≠ none)
include stored

theorem check_of_stored : (∀ index, check buffer length 0 ≠ .error (.outside index)) ∧
    ∀ whole : Buffer, whole.Covers buffer length → check whole length 0 = check buffer length 0 := by
  cases check_within buffer length 0 with
  | missing below absent faulted => exact absurd absent (stored _ below)
  | found sound same => exact ⟨sound, same⟩

/-- An octet that is not read has no part in the verdict. -/
theorem check_without_of_not_reads {index : Nat} (unread : ¬ Reads buffer length index) :
    check (buffer.without index) length 0 = check buffer length 0 := by
  cases check_within (buffer.without index) length 0 with
  | @missing place below absent faulted =>
    by_cases here : place = index
    · subst here
      exact absurd faulted unread
    · rw [Buffer.without, if_neg here] at absent
      exact absurd absent (stored place below)
  | found sound same =>
    refine (same buffer ?_).symm
    intro place _ octet held
    rw [Buffer.without] at held
    split at held
    · cases held
    · exact held

end Stored

/-! ## Passages of the loop -/

/-- A passage from an offset below the length to the one behind the character
    there. -/
def Passes (buffer : Buffer) (length offset next : Nat) : Prop :=
  offset < length ∧ ∃ follow, character buffer length offset = .ok follow ∧ next = offset + follow + 1

/-- An offset to which so many passages lead from the start. -/
inductive Reached (buffer : Buffer) (length : Nat) : Nat → Nat → Prop where
  | start : Reached buffer length 0 0
  | pass {count offset next : Nat} (before : Reached buffer length count offset)
    (passes : Passes buffer length offset next) : Reached buffer length (count + 1) next

/-- A character that passes has its last octet below the length. -/
theorem follow_lt_of_character {follow : Nat} (passed : character buffer length offset = .ok follow) :
    follow < length - offset := by
  rw [character] at passed
  split at passed
  · cases passed
  · split at passed
    · cases passed
    · split at passed
      · cases passed
      · rename_i enough
        split at passed
        · cases passed
        · split at passed
          · cases passed
            omega
          · cases passed

theorem Passes.bounds {next : Nat} (passes : Passes buffer length offset next) : offset < next ∧ next ≤ length := by
  obtain ⟨inside, follow, passed, rfl⟩ := passes
  have enough := follow_lt_of_character passed
  omega

theorem Reached.bounds {count : Nat} (reached : Reached buffer length count offset) :
    count ≤ offset ∧ offset ≤ length := by
  induction reached with
  | start => exact ⟨Nat.le_refl 0, Nat.zero_le length⟩
  | pass before passes ih =>
    have step := passes.bounds
    omega

/-- The loop ends at an offset, at the length or at a character that does not
    pass, and so does the check from there. -/
structure Ends (buffer : Buffer) (length offset : Nat) (verdict : Except Fault Unit) : Prop where
  accepted : verdict = .ok () → offset = length
  refused : ∀ fault, verdict = .error fault → offset < length ∧ character buffer length offset = .error fault

/-- The induction is on the passages that the check makes. -/
theorem Reached.exists_ends {count : Nat} (reached : Reached buffer length count offset) :
    ∃ last final, Reached buffer length last final ∧ Ends buffer length final (check buffer length offset) := by
  fun_induction check buffer length offset generalizing count with
  | case1 offset inside fault failed =>
    refine ⟨count, offset, reached, ?_, ?_⟩
    · intro accepted
      cases accepted
    · intro other refused
      cases refused
      exact ⟨inside, failed⟩
  | case2 offset inside follow passed ih => exact ih (reached.pass ⟨inside, follow, passed, rfl⟩)
  | case3 offset outside =>
    have bounds := reached.bounds
    refine ⟨count, offset, reached, ?_, ?_⟩
    · intro _
      omega
    · intro other refused
      cases refused

/-! ## Code points on the way -/

/-- The octets behind a first octet are taken up in two parts like all at once. -/
theorem continuations_add (buffer : Buffer) (start front back : Nat) (code : UInt32) :
    continuations buffer start (front + back) code =
      (continuations buffer start front code).bind (continuations buffer (start + front) back) := by
  induction front generalizing start code with
  | zero =>
    rw [Nat.zero_add]
    rfl
  | succ front ih =>
    have further : start + (front + 1) = start + 1 + front := by omega
    rw [Nat.succ_add, continuations, continuations, further]
    split
    · rfl
    · split
      · exact ih _ _
      · rfl

theorem toNat_continuations_lt {start count : Nat} {code result : UInt32}
    (room : (code.toNat + 1) * 64 ^ count ≤ 2 ^ 26) (read : continuations buffer start count code = .ok result) :
    result.toNat < (code.toNat + 1) * 64 ^ count := by
  induction count generalizing start code with
  | zero =>
    cases read
    rw [Nat.pow_zero, Nat.mul_one]
    exact Nat.lt_succ_self _
  | succ count ih =>
    rw [continuations] at read
    split at read
    · cases read
    · rename_i octet _
      split at read
      · obtain ⟨-, rest⟩ := toNat_extend_of_room room octet
        exact Nat.lt_of_lt_of_le (ih (Nat.le_trans rest room) read) rest
      · cases read

/-- On the way a code point has no more than twenty-one bits. -/
theorem toNat_continuations_of_lead? {octet : UInt8} {lead : Lead} (found : lead? octet = some lead)
    {start count : Nat} (announced : count ≤ lead.follow) {code : UInt32}
    (read : continuations buffer start count lead.bits = .ok code) : code.toNat < 2 ^ 21 := by
  have part : 64 ^ count ≤ 64 ^ lead.follow := Nat.pow_le_pow_right (by decide) announced
  have room : (lead.bits.toNat + 1) * 64 ^ count ≤ 2 ^ 21 :=
    Nat.le_trans (Nat.mul_le_mul_left _ part) (room_of_lead? found)
  exact Nat.lt_of_lt_of_le (toNat_continuations_lt (Nat.le_trans room (by decide)) read) room

theorem toNat_shiftLeft_six {code : UInt32} (small : code.toNat < 2 ^ 21) :
    (code <<< 6).toNat = code.toNat * 2 ^ 6 := by
  rw [UInt32.toNat_shiftLeft, Nat.shiftLeft_eq, Nat.mod_eq_of_lt]
  · rfl
  · have six : (6 : UInt32).toNat % 32 = 6 := rfl
    rw [six]
    omega

/-! ## The check of a buffer -/

theorem wellFormedFirst_iff (length : Nat) (octets : Octets) :
    wellFormedFirst length octets ↔ check (fun index => octets[index]?) length 0 = .ok () := by
  simp only [wellFormedFirst, List.getElem?_toArray]
  cases check (fun index => octets[index]?) length 0 <;> simp

/-- The check of the first octets of a buffer never reads outside of them, and an
    octet that is not read has no part in its verdict. Every passage of the loop
    moves the offset on and not beyond the length, so there are no more passages
    than octets until the loop ends. A code point that is read octet by octet has
    room for each of them. The verdict is that of every buffer with these first
    octets. -/
theorem wellFormedFirst_within {octets : Octets} {length : Nat} (inside : length ≤ octets.length) :
    let buffer : Buffer := fun index => octets[index]?
    (wellFormedFirst length octets ↔ check buffer length 0 = .ok ()) ∧
      (∀ index, check buffer length 0 ≠ .error (.outside index)) ∧
      (∀ index, (Reads buffer length index → index < length) ∧
        (¬ Reads buffer length index → check (buffer.without index) length 0 = check buffer length 0)) ∧
      (∀ offset next, Passes buffer length offset next → offset < next ∧ next ≤ length) ∧
      (∀ count offset, Reached buffer length count offset → count ≤ offset ∧ offset ≤ length) ∧
      (∃ count offset, Reached buffer length count offset ∧ Ends buffer length offset (check buffer length 0)) ∧
      (∀ octet lead, lead? octet = some lead → ∀ start front back code, front + back = lead.follow →
        continuations buffer start front lead.bits = .ok code →
          continuations buffer start lead.follow lead.bits = continuations buffer (start + front) back code ∧
          code.toNat < 2 ^ 21 ∧ (code <<< 6).toNat = code.toNat * 2 ^ 6) ∧
      ∀ other : Octets, other.take length = octets.take length →
        wellFormedFirst length other = wellFormedFirst length octets := by
  intro buffer
  have stored : ∀ index < length, buffer index ≠ none := by
    intro index low absent
    have beyond := List.getElem?_eq_none_iff.mp absent
    omega
  refine ⟨wellFormedFirst_iff length octets, ?_, ?_, fun _ _ => Passes.bounds, fun _ _ => Reached.bounds,
    Reached.start.exists_ends, ?_, ?_⟩
  · exact (check_of_stored stored).1
  · intro index
    exact ⟨lt_of_reads, check_without_of_not_reads stored⟩
  · intro octet lead found start front back code parts read
    have small := toNat_continuations_of_lead? found (by omega) read
    refine ⟨?_, small, toNat_shiftLeft_six small⟩
    rw [← parts, continuations_add, read]
    rfl
  · intro other same
    have covers : Buffer.Covers (fun index => other[index]?) buffer length := by
      intro index low octet held
      show other[index]? = some octet
      rw [← List.getElem?_take_of_lt low, same, List.getElem?_take_of_lt low]
      exact held
    rw [Bool.eq_iff_iff, wellFormedFirst_iff, wellFormedFirst_iff, (check_of_stored stored).2 _ covers]

/-- A character of four octets, and behind it an octet that announces one more. -/
def cutShort : Octets := [0xF0, 0x9F, 0x98, 0x80, 0xC3]

theorem wellFormedFirst_within_cutShort :
    let buffer : Buffer := fun index => cutShort[index]?
    4 ≤ cutShort.length ∧ wellFormedFirst 4 cutShort ∧ ¬ wellFormedFirst 5 cutShort ∧
      (Reads buffer 4 3 ∧ 3 < 4) ∧
      (¬ Reads buffer 4 4 ∧ check (buffer.without 4) 4 0 = check buffer 4 0) ∧
      (Passes buffer 4 0 4 ∧ 0 < 4 ∧ 4 ≤ 4) ∧
      continuations buffer 1 3 0 = continuations buffer 3 1 0x7D8 ∧ ((0x7D8 : UInt32) <<< 6).toNat = 0x7D8 * 2 ^ 6 ∧
      wellFormedFirst 4 [0xF0, 0x9F, 0x98, 0x80, 0x41] = wellFormedFirst 4 cutShort := by
  intro buffer
  have inside : 4 ≤ cutShort.length := by decide
  obtain ⟨-, -, reads, passes, -, -, codes, alike⟩ := wellFormedFirst_within inside
  have read : Reads buffer 4 3 := by decide +kernel
  have unread : ¬ Reads buffer 4 4 := fun read => Nat.lt_irrefl 4 ((reads 4).1 read)
  have passage : Passes buffer 4 0 4 := ⟨by decide, 3, by decide +kernel, rfl⟩
  obtain ⟨further, -, kept⟩ := codes 0xF0 ⟨3, 0, 0x10000⟩ (by decide) 1 2 1 0x7D8 rfl (by decide +kernel)
  exact ⟨inside, by decide +kernel, by decide +kernel, ⟨read, (reads 3).1 read⟩, ⟨unread, (reads 4).2 unread⟩,
    ⟨passage, passes 0 4 passage⟩, further, kept, alike _ rfl⟩

end BleAdvertising.Utf8
