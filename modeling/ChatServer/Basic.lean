import Mathlib.Data.Fin.Tuple.Basic
import Mathlib.Data.Fintype.Card

/-!
# Configuration, slot arrays and name validation

The server keeps its sessions and its rooms in fixed-size arrays of nullable
pointers: `connection_t *connections[MAX_CONN]`, `room_t *rooms[MAX_ROOMS]`
and the `members[ROOM_CAPACITY]` array of every room.  Every lookup in the
source is a linear scan that returns the first index whose slot passes a
test.  This module fixes the constants of `chatserver.h`, models such an
array as a function `Fin n → Option α`, a scan as `Fin.find`, and counts the
occupied slots.

C strings are modelled by the characters before their terminating NUL; the
validators `is_valid_username` and `is_valid_roomname` are one definition
with the buffer length as parameter.
-/

namespace ChatServer.Basic

/-! ## Constants of `chatserver.h` and `server.c` -/

/-- `MAX_CONN`: the number of slots of `connections[]`. -/
def maxConn : Nat := 256

/-- `USERNAME_LEN`: the size of a username buffer, terminating NUL included. -/
def usernameLen : Nat := 16

/-- `BUF_SIZE` of the server: the size of every formatting and receive buffer. -/
def bufSize : Nat := 4096

/-- `ROOM_NAME_LEN`: the size of a room-name buffer, terminating NUL included. -/
def roomNameLen : Nat := 32

/-- `MAX_ROOMS`: the number of slots of `rooms[]`. -/
def maxRooms : Nat := 256

/-- `ROOM_CAPACITY`: the number of member slots of a room. -/
def roomCapacity : Nat := 15

/-- `NUM_UPLOAD_WORKERS`: the size of the file-upload worker pool. -/
def numUploadWorkers : Nat := 5

/-- `MAX_FILENAME` of `file_queue.h`, terminating NUL included. -/
def maxFilename : Nat := 256

/-- `3 * 1024 * 1024`: the largest file `/sendfile` accepts, on the server and the client. -/
def maxFileSize : Nat := 3 * 1024 * 1024

/--
The arrays are non-empty, so their indices have numerals.  The `Zero Nat` instance is
the one `Fin.instOfNat` asks for, whatever else is imported.
-/
instance : @NeZero Nat Zero.ofOfNat0 maxConn := ⟨Nat.succ_ne_zero _⟩

instance : @NeZero Nat Zero.ofOfNat0 maxRooms := ⟨Nat.succ_ne_zero _⟩

instance : @NeZero Nat Zero.ofOfNat0 roomCapacity := ⟨Nat.succ_ne_zero _⟩

instance : @NeZero Nat Zero.ofOfNat0 numUploadWorkers := ⟨Nat.succ_ne_zero _⟩

/-! ## Arrays of nullable pointers -/

section SlotArray

variable {n : Nat} {α : Type}

/-- The scan `for (i = 0; i < n; ++i) if (a[i] == NULL) return i;`. -/
def firstFree (slots : Fin n → Option α) : Option (Fin n) :=
  Fin.find fun index => (slots index).isNone

/-- The scan for the first slot holding exactly the pointer `value`. -/
def firstHolding [DecidableEq α] (slots : Fin n → Option α) (value : α) :
    Option (Fin n) :=
  Fin.find fun index => slots index = some value

theorem firstFree_eq_some {slots : Fin n → Option α} {index : Fin n} :
    firstFree slots = some index ↔
      slots index = none ∧ ∀ other, slots other = none → index ≤ other := by
  simp [firstFree, Fin.find_eq_some_iff]

theorem firstFree_eq_none {slots : Fin n → Option α} :
    firstFree slots = none ↔ ∀ index, (slots index).isSome := by
  simp [firstFree, Fin.find_eq_none_iff, Option.isSome_iff_ne_none]

theorem firstHolding_eq_some [DecidableEq α] {slots : Fin n → Option α}
    {value : α} {index : Fin n} :
    firstHolding slots value = some index ↔
      slots index = some value ∧
        ∀ other, slots other = some value → index ≤ other := by
  simp [firstHolding, Fin.find_eq_some_iff]

/-- The indices of the non-NULL slots. -/
def occupied (slots : Fin n → Option α) : Finset (Fin n) :=
  Finset.univ.filter fun index => (slots index).isSome

@[simp]
theorem mem_occupied {slots : Fin n → Option α} {index : Fin n} :
    index ∈ occupied slots ↔ (slots index).isSome := by
  simp [occupied]

/-- Filling a NULL slot adds one occupied slot. -/
theorem card_occupied_fill {slots : Fin n → Option α} {index : Fin n}
    (value : α) (free : slots index = none) :
    (occupied (Function.update slots index (some value))).card =
      (occupied slots).card + 1 := by
  have grown :
      occupied (Function.update slots index (some value)) =
        insert index (occupied slots) := by
    ext other
    by_cases same : other = index
    · subst same
      simp
    · simp [Function.update_noteq same, same]
  rw [grown, Finset.card_insert_of_not_mem (by simp [free])]

/-- Clearing a non-NULL slot removes one occupied slot. -/
theorem card_occupied_clear {slots : Fin n → Option α} {index : Fin n}
    (taken : (slots index).isSome) :
    (occupied (Function.update slots index none)).card + 1 =
      (occupied slots).card := by
  have shrunk :
      occupied (Function.update slots index none) =
        (occupied slots).erase index := by
    ext other
    by_cases same : other = index
    · subst same
      simp
    · simp [Function.update_noteq same, same]
  rw [shrunk, Finset.card_erase_add_one (by simpa using taken)]

/-- An array with fewer occupied slots than slots has a NULL slot. -/
theorem exists_free_of_card_lt {slots : Fin n → Option α}
    (fewer : (occupied slots).card < n) : ∃ index, slots index = none := by
  by_contra full
  push_neg at full
  have everything : occupied slots = Finset.univ := by
    ext index
    simpa [Option.isSome_iff_ne_none] using full index
  rw [everything, Finset.card_univ, Fintype.card_fin] at fewer
  exact lt_irrefl n fewer

/-- A scan for a free slot succeeds when fewer than all slots are occupied. -/
theorem firstFree_isSome_of_card_lt {slots : Fin n → Option α}
    (fewer : (occupied slots).card < n) : (firstFree slots).isSome := by
  obtain ⟨index, free⟩ := exists_free_of_card_lt fewer
  cases found : firstFree slots with
  | some _ => rfl
  | none =>
      have := firstFree_eq_none.mp found index
      simp [free] at this

/-- No slot is occupied exactly when there are no occupied indices. -/
theorem occupied_eq_empty {slots : Fin n → Option α} :
    occupied slots = ∅ ↔ ∀ index, slots index = none := by
  simp [Finset.eq_empty_iff_forall_not_mem, Option.isSome_iff_ne_none]

end SlotArray

/-! ## Name validation -/

/-- `strnlen(s, limit)` on a string of `s.length` characters. -/
def strnlen (s : List Char) (limit : Nat) : Nat :=
  min s.length limit

/--
The body shared by `is_valid_username` and `is_valid_roomname`: the string,
measured with `strnlen` against the buffer size, must be non-empty, must leave
room for the NUL, and must consist of `isalnum` characters.
-/
def isValidName (bufferLen : Nat) (s : List Char) : Bool :=
  let len := strnlen s bufferLen
  if len = 0 ∨ len > bufferLen - 1 then false
  else (s.take len).all Char.isAlphanum

/-- `is_valid_username`. -/
def isValidUsername (s : List Char) : Bool :=
  isValidName usernameLen s

/-- `is_valid_roomname`. -/
def isValidRoomname (s : List Char) : Bool :=
  isValidName roomNameLen s

/-- A name is valid iff it fits the buffer with its NUL and is alphanumeric. -/
theorem isValidName_iff {bufferLen : Nat} {s : List Char} :
    isValidName bufferLen s = true ↔
      0 < s.length ∧ s.length < bufferLen ∧ ∀ c ∈ s, c.isAlphanum = true := by
  unfold isValidName strnlen
  by_cases fits : 0 < s.length ∧ s.length < bufferLen
  · have length : min s.length bufferLen = s.length := by omega
    simp only [length, List.take_length, List.all_eq_true]
    rw [if_neg (by omega)]
    simp [fits]
  · rw [if_pos (by omega)]
    simp only [Bool.false_eq_true, false_iff]
    omega

/--
The validators accept one character less than their comments and replies
promise: `len > USERNAME_LEN - 1` leaves a byte for the NUL, so usernames
have 1 to 15 characters and room names 1 to 31, and a name of 16 (or 32)
alphanumeric characters is rejected.
-/
theorem validators_reject_longest_names :
    (∀ s, isValidUsername s = true ↔
      1 ≤ s.length ∧ s.length ≤ 15 ∧ ∀ c ∈ s, c.isAlphanum = true) ∧
    (∀ s, isValidRoomname s = true ↔
      1 ≤ s.length ∧ s.length ≤ 31 ∧ ∀ c ∈ s, c.isAlphanum = true) ∧
    isValidUsername (List.replicate 16 'a') = false ∧
    isValidRoomname (List.replicate 32 'a') = false := by
  have bounds {n : Nat} {P : Prop} (s : List Char) :
      (0 < s.length ∧ s.length < n + 1 ∧ P) ↔ (1 ≤ s.length ∧ s.length ≤ n ∧ P) :=
    ⟨fun ⟨nonempty, fits, all⟩ => ⟨nonempty, by omega, all⟩,
      fun ⟨nonempty, fits, all⟩ => ⟨nonempty, by omega, all⟩⟩
  exact ⟨fun s => (isValidName_iff).trans (bounds s), fun s => (isValidName_iff).trans (bounds s),
    by decide, by decide⟩

/-! ## Formatted output -/

/--
`snprintf(buf, size, ...)` of the formatted text `output`: the characters it
stores before the NUL, at most `size - 1` of them, and the value it returns,
the length of the whole text.
-/
def snprintf (size : Nat) (output : List Char) : List Char × Nat :=
  (output.take (size - 1), output.length)

end ChatServer.Basic
