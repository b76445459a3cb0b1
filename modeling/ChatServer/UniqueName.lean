import ChatServer.Basic

/-!
# The client's choice of a local file name

Before it opens the file an incoming header announces, `recv_thread` looks
for a name that is not taken in its working directory.  It splits the
basename at its last dot into `name_only` and `ext_only`, and while `stat`
finds the candidate `name_only ++ ext_only` it appends `_1` to `name_only`.
Every string lives in a buffer of `MAX_FILENAME` bytes, 256 in the client as
in `file_queue.h`: the candidate is cut to 255 characters, and each pass keeps
at most 253 characters of `name_only` before the `_1`.

Once `name_only` has 253 characters or more, a pass gives the same
`name_only` back, so the candidates stop changing.  When the directory holds
the candidate reached there, the loop never ends.  Below that the loop ends:
when the name and its extension leave room for one `_1` per name of the
directory, the candidates differ in length, and within one pass more than
the directory has names the loop returns a name it does not hold.

The directory is a finite list of the names `stat` finds; the loop is run
for at most `fuel` passes and returns `none` when the fuel runs out.
-/

namespace ChatServer.UniqueName

open ChatServer.Basic

/--
The split at `strrchr(temp_fname, '.')`: `name_only`, the characters before
the last dot, and `ext_only`, the rest from the dot on; with no dot, the
whole name and an empty extension.
-/
def splitExtension (fname : List Char) : List Char × List Char :=
  if '.' ∈ fname then
    let baseLen := fname.length - 1 - (fname.reverse.takeWhile (· ≠ '.')).length
    (fname.take baseLen, fname.drop baseLen)
  else (fname, [])

/-- `snprintf(candidate, sizeof(candidate), "%s%s", name_only, ext_only)`. -/
def candidate (nameOnly extOnly : List Char) : List Char :=
  (snprintf maxFilename (nameOnly ++ extOnly)).1

/--
One pass's new `name_only`: `snprintf(new_base, sizeof(new_base), "%.*s_1",
max_copy, name_only)` with `max_copy = sizeof(new_base) - 3`, copied back
with `strncpy(name_only, new_base, MAX_FILENAME - 1)`.
-/
def appendSuffix (nameOnly : List Char) : List Char :=
  ((snprintf maxFilename (nameOnly.take (maxFilename - 3) ++ "_1".toList)).1).take
    (maxFilename - 1)

/-- `while (stat(candidate, &st) == 0)`, for at most `fuel` passes. -/
def uniqueLoop (existing : List (List Char)) (extOnly : List Char) :
    Nat → List Char → Option (List Char)
  | 0, _ => none
  | fuel + 1, nameOnly =>
      if candidate nameOnly extOnly ∈ existing then
        uniqueLoop existing extOnly fuel (appendSuffix nameOnly)
      else some (candidate nameOnly extOnly)

/--
The name `recv_thread` saves an incoming file under: the basename cut to
`MAX_FILENAME - 1` characters, split at its last dot, then the loop.
-/
def uniqueName (existing : List (List Char)) (fuel : Nat) (incoming : List Char) :
    Option (List Char) :=
  let split := splitExtension (incoming.take (maxFilename - 1))
  uniqueLoop existing split.2 fuel split.1

/-! ## The loop -/

/-- A name the loop returns is not in the directory. -/
theorem uniqueLoop_not_mem {existing : List (List Char)} {extOnly : List Char} :
    ∀ {fuel : Nat} {nameOnly name : List Char},
      uniqueLoop existing extOnly fuel nameOnly = some name → name ∉ existing
  | 0, _, _, stopped => nomatch stopped
  | fuel + 1, nameOnly, name, found => by
      rw [uniqueLoop] at found
      split at found
      · exact uniqueLoop_not_mem found
      · cases found
        assumption

theorem appendSuffix_eq (nameOnly : List Char) :
    appendSuffix nameOnly = nameOnly.take (maxFilename - 3) ++ "_1".toList := by
  rw [appendSuffix, snprintf, List.take_of_length_le, List.take_of_length_le] <;>
    simp [maxFilename]

/-- From 253 characters on, appending `_1` gives the same `name_only` on every later pass. -/
theorem appendSuffix_appendSuffix {nameOnly : List Char} (long : maxFilename - 3 ≤ nameOnly.length) :
    appendSuffix (appendSuffix nameOnly) = appendSuffix nameOnly := by
  rw [appendSuffix_eq (appendSuffix nameOnly), appendSuffix_eq nameOnly,
    List.take_append_of_le_length (by simp [List.length_take]; omega),
    List.take_take, min_self]

/-- At a fixed point whose candidate is taken, the loop runs out of any fuel. -/
theorem uniqueLoop_of_fixed {existing : List (List Char)} {extOnly nameOnly : List Char}
    (fixed : appendSuffix nameOnly = nameOnly) (taken : candidate nameOnly extOnly ∈ existing) :
    ∀ fuel, uniqueLoop existing extOnly fuel nameOnly = none
  | 0 => rfl
  | fuel + 1 => by
      rw [uniqueLoop, if_pos taken, fixed]
      exact uniqueLoop_of_fixed fixed taken fuel

/--
The loop need not end: for every incoming name whose `name_only` has at least
253 characters, a directory that holds its first two candidates keeps
`stat` succeeding on every pass, whatever the fuel.
-/
theorem unique_name_loop_spins (existing : List (List Char)) (incoming nameOnly extOnly : List Char)
    (split : splitExtension (incoming.take (maxFilename - 1)) = (nameOnly, extOnly))
    (long : maxFilename - 3 ≤ nameOnly.length)
    (first : candidate nameOnly extOnly ∈ existing)
    (second : candidate (appendSuffix nameOnly) extOnly ∈ existing) (fuel : Nat) :
    uniqueName existing fuel incoming = none := by
  rw [uniqueName, split]
  cases fuel with
  | zero => rfl
  | succ fuel =>
      rw [uniqueLoop, if_pos first]
      exact uniqueLoop_of_fixed (appendSuffix_appendSuffix long) second fuel

/-- A file `a…a` of 253 characters, with that name and the name with `_1` taken. -/
def spinningDirectory : List (List Char) :=
  [List.replicate 253 'a', List.replicate 253 'a' ++ "_1".toList]

theorem unique_name_loop_spins_on_253_as :
    splitExtension ((List.replicate 253 'a').take (maxFilename - 1)) =
        (List.replicate 253 'a', []) ∧
      maxFilename - 3 ≤ (List.replicate 253 'a').length ∧
      candidate (List.replicate 253 'a') [] ∈ spinningDirectory ∧
      candidate (appendSuffix (List.replicate 253 'a')) [] ∈ spinningDirectory ∧
      uniqueName spinningDirectory 1000 (List.replicate 253 'a') = none := by
  have length : (List.replicate 253 'a').length = 253 := List.length_replicate _ _
  have split : splitExtension ((List.replicate 253 'a').take (maxFilename - 1)) =
      (List.replicate 253 'a', []) := by
    rw [List.take_of_length_le (by rw [length]; decide)]
    exact if_neg (by rw [List.mem_replicate]; decide)
  have long : maxFilename - 3 ≤ (List.replicate 253 'a').length := by rw [length]; decide
  have first : candidate (List.replicate 253 'a') [] ∈ spinningDirectory := by
    rw [candidate, snprintf, List.append_nil, List.take_of_length_le (by rw [length]; decide)]
    exact List.mem_cons_self _ _
  have second : candidate (appendSuffix (List.replicate 253 'a')) [] ∈ spinningDirectory := by
    have outer : (List.replicate 253 'a' ++ "_1".toList).take (maxFilename - 1) =
        List.replicate 253 'a' ++ "_1".toList :=
      List.take_of_length_le (by rw [List.length_append, length]; decide)
    have inner : (List.replicate 253 'a').take (maxFilename - 3) = List.replicate 253 'a' :=
      List.take_of_length_le (by rw [length]; decide)
    rw [candidate, snprintf, List.append_nil, appendSuffix_eq, inner, outer]
    exact List.mem_cons_of_mem _ (List.mem_cons_self _ _)
  exact ⟨split, long, first, second,
    unique_name_loop_spins _ _ (List.replicate 253 'a') [] split long first second 1000⟩

/-! ## When the loop ends -/

/-- A run that finds nothing has found every candidate it tried taken. -/
theorem taken_of_uniqueLoop_none {existing : List (List Char)} {extOnly : List Char} :
    ∀ {fuel : Nat} {nameOnly : List Char}, uniqueLoop existing extOnly fuel nameOnly = none →
      ∀ i < fuel, candidate (appendSuffix^[i] nameOnly) extOnly ∈ existing
  | 0, _, _, i, below => absurd below (Nat.not_lt_zero i)
  | fuel + 1, nameOnly, stopped, i, below => by
      rw [uniqueLoop] at stopped
      split at stopped
      case isTrue taken =>
        cases i with
        | zero => exact taken
        | succ i => exact taken_of_uniqueLoop_none stopped i (by omega)
      case isFalse => cases stopped

/-- Below `MAX_FILENAME - 1` characters, each pass adds the two characters of `_1`. -/
theorem length_iterate_appendSuffix (nameOnly : List Char) :
    ∀ i, nameOnly.length + 2 * i ≤ maxFilename - 1 →
      (appendSuffix^[i] nameOnly).length = nameOnly.length + 2 * i
  | 0, _ => rfl
  | i + 1, short => by
      have before := length_iterate_appendSuffix nameOnly i (by omega)
      rw [Function.iterate_succ_apply', appendSuffix_eq, List.length_append, List.length_take,
        before]
      unfold maxFilename at short ⊢
      simp only [List.length_cons, List.length_nil, show "_1".toList = ['_', '1'] from rfl]
      omega

theorem length_candidate {nameOnly extOnly : List Char}
    (fits : nameOnly.length + extOnly.length ≤ maxFilename - 1) :
    (candidate nameOnly extOnly).length = nameOnly.length + extOnly.length := by
  rw [candidate, snprintf, List.length_take, List.length_append]
  omega

/--
The loop ends with a free name when the suffixes fit: if `name_only` and
`ext_only` leave room for one `_1` per name in the directory, the candidates
of the first passes have different lengths, so they cannot all be taken, and
with more passes than the directory has names the loop returns a name the
directory does not hold.
-/
theorem unique_name_found_when_short (existing : List (List Char))
    (incoming nameOnly extOnly : List Char)
    (split : splitExtension (incoming.take (maxFilename - 1)) = (nameOnly, extOnly))
    (room : nameOnly.length + 2 * existing.length + extOnly.length ≤ maxFilename - 1)
    {fuel : Nat} (enough : existing.length < fuel) :
    ∃ name, uniqueName existing fuel incoming = some name ∧ name ∉ existing := by
  rw [uniqueName, split]
  cases found : uniqueLoop existing extOnly fuel nameOnly with
  | some name => exact ⟨name, rfl, uniqueLoop_not_mem found⟩
  | none =>
      have length_tried (i : Nat) (early : i ≤ existing.length) :
          (candidate (appendSuffix^[i] nameOnly) extOnly).length =
            nameOnly.length + 2 * i + extOnly.length := by
        have name := length_iterate_appendSuffix nameOnly i (by omega)
        rw [length_candidate (by rw [name]; omega), name]
      let tried := (List.range (existing.length + 1)).map fun i =>
        candidate (appendSuffix^[i] nameOnly) extOnly
      have distinct : tried.Nodup := (List.nodup_range _).map_on fun i first j second same => by
        have lengths := congrArg List.length same
        rw [List.mem_range] at first second
        rw [length_tried i (by omega), length_tried j (by omega)] at lengths
        omega
      have taken : tried ⊆ existing := fun name member => by
        obtain ⟨i, early, rfl⟩ := List.mem_map.mp member
        exact taken_of_uniqueLoop_none found i (by rw [List.mem_range] at early; omega)
      have counted := (distinct.subperm taken).length_le
      simp only [tried, List.length_map, List.length_range] at counted
      omega

theorem unique_name_found_when_short_for_a_txt :
    splitExtension ("a.txt".toList.take (maxFilename - 1)) = ("a".toList, ".txt".toList) ∧
      "a".toList.length + 2 * ["a.txt".toList].length + ".txt".toList.length ≤ maxFilename - 1 ∧
      ["a.txt".toList].length < 2 ∧
      ∃ name, uniqueName ["a.txt".toList] 2 "a.txt".toList = some name ∧
        name ∉ ["a.txt".toList] :=
  have split : splitExtension ("a.txt".toList.take (maxFilename - 1)) =
      ("a".toList, ".txt".toList) := by decide
  have room : "a".toList.length + 2 * ["a.txt".toList].length + ".txt".toList.length ≤
      maxFilename - 1 := by decide
  ⟨split, room, by decide, unique_name_found_when_short _ _ _ _ split room (by decide)⟩

end ChatServer.UniqueName
