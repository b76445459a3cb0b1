import Mathlib.Data.Fintype.Card

/-!
# The client's line editor

The client reads the terminal in raw mode one byte at a time.  `main`'s
input loop hands CR and LF to its own branch, which NUL-terminates
`ih.buffer` at `ih.length`, passes the line to `process_command` and resets
the buffer; bytes 127 and 8 go to `ti_process_backspace`; every other byte
goes to `ti_process_char`, which first runs a three-state filter for escape
sequences and otherwise appends the byte to `buffer` while there is room.

This module models `TI_InputHandler` with its `char buffer[TI_MAXLINE]` as a
function on `Fin TI_MAXLINE`, each store into it as a bounds-checked write
(`none` when the index lies outside the buffer), and the loop as `feed` over
the bytes read.  Over it stands what the editor is for, a `Line`: the bytes
typed since the last Enter and the filter's state.  Every handler reachable
from `ti_input_init` is well formed (`InputHandler.Wf`), every write stays in
`buffer`, and the loop refines `Line.feed`.  Enter resets the line but not
`esc_state`: an escape cut off by Enter swallows the next line's first byte.
-/

namespace ChatServer.TermInput

/-- `TI_MAXLINE`: the size of the input buffer, its terminating NUL included. -/
def tiMaxline : Nat := 1024

/-- `TI_InputHandler` with the fields the input loop reads and writes. -/
structure InputHandler where
  buffer : Fin tiMaxline → UInt8
  length : Nat
  escState : Int

/-- The bytes of `buffer` in order. -/
def InputHandler.bytes (ih : InputHandler) : List UInt8 :=
  List.ofFn ih.buffer

/-- `buffer[0 .. length)`: what the user has typed. -/
def InputHandler.typed (ih : InputHandler) : List UInt8 :=
  ih.bytes.take ih.length

/-- The C string at `buffer`: its bytes up to the first NUL. -/
def InputHandler.cString (ih : InputHandler) : List UInt8 :=
  ih.bytes.takeWhile (· != 0)

/-- `ih->buffer[index] = c`, or `none` when `index` lies outside `buffer`. -/
def InputHandler.store (ih : InputHandler) (index : Nat) (c : UInt8) : Option InputHandler :=
  if h : index < tiMaxline then
    some { ih with buffer := Function.update ih.buffer ⟨index, h⟩ c }
  else none

/-- `ti_input_init`: an empty line and no escape sequence in progress. -/
def tiInputInit (ih : InputHandler) : InputHandler :=
  { buffer := Function.update ih.buffer ⟨0, by decide⟩ 0, length := 0, escState := 0 }

/-- `ti_process_backspace`: drop the last byte typed, if there is one. -/
def tiProcessBackspace (ih : InputHandler) : Option InputHandler :=
  if ih.length > 0 then { ih with length := ih.length - 1 }.store (ih.length - 1) 0
  else some ih

/-- The end of `ti_process_char`: append `c` and a NUL while there is room. -/
def InputHandler.append (ih : InputHandler) (c : UInt8) : Option InputHandler :=
  if ih.length + 1 < tiMaxline then
    (ih.store ih.length c).bind fun ih =>
      { ih with length := ih.length + 1 }.store (ih.length + 1) 0
  else some ih

/--
`ti_process_char`: ESC starts a sequence, a `[` after it moves to its final
byte, and every byte of a sequence is swallowed; other bytes are appended.
-/
def tiProcessChar (ih : InputHandler) (c : UInt8) : Option InputHandler :=
  if ih.escState = 0 then
    if c = 0x1B then some { ih with escState := 1 } else ih.append c
  else if ih.escState = 1 then
    some { ih with escState := if c = '['.toUInt8 then 2 else 0 }
  else if ih.escState = 2 then some { ih with escState := 0 }
  else ih.append c

/-- CR or LF. -/
def isEnter (c : UInt8) : Bool :=
  c = '\r'.toUInt8 || c = '\n'.toUInt8

/--
One byte of `main`'s input loop: the handler after it and, at an Enter, the
line the buffer holds once `buffer[length]` is set to NUL.  That line goes to
`process_command` unless `length` is 0.
-/
def keystroke (ih : InputHandler) (c : UInt8) : Option (InputHandler × Option (List UInt8)) :=
  if isEnter c then
    (ih.store ih.length 0).bind fun held =>
      ({ held with length := 0 }.store 0 0).map fun reset => (reset, some held.cString)
  else if c = 127 ∨ c = 8 then (tiProcessBackspace ih).map (·, none)
  else (tiProcessChar ih c).map (·, none)

/-- The loop over the bytes read: the final handler and the line held at each Enter. -/
def feed (ih : InputHandler) : List UInt8 → Option (InputHandler × List (List UInt8))
  | [] => some (ih, [])
  | c :: keys =>
      (keystroke ih c).bind fun (next, line) =>
        (feed next keys).map fun (last, lines) => (last, line.toList ++ lines)

/-! ## The line editor the loop implements -/

/-- The bytes typed since the last Enter and the escape filter's state. -/
structure Line where
  typed : List UInt8
  escState : Int
  deriving DecidableEq, Repr

/-- A byte that is neither Enter nor a backspace. -/
def Line.filter (l : Line) (c : UInt8) : Line :=
  if l.escState = 0 ∧ c = 0x1B then ⟨l.typed, 1⟩
  else if l.escState = 1 then ⟨l.typed, if c = '['.toUInt8 then 2 else 0⟩
  else if l.escState = 2 then ⟨l.typed, 0⟩
  else if l.typed.length + 1 < tiMaxline then ⟨l.typed ++ [c], l.escState⟩
  else l

/-- One byte: Enter hands over the typed bytes up to a NUL and clears them. -/
def Line.key (l : Line) (c : UInt8) : Line × Option (List UInt8) :=
  if isEnter c then (⟨[], l.escState⟩, some (l.typed.takeWhile (· != 0)))
  else if c = 127 ∨ c = 8 then (⟨l.typed.dropLast, l.escState⟩, none)
  else (l.filter c, none)

/-- The line after `keys` and the lines handed over on the way. -/
def Line.feed (l : Line) : List UInt8 → Line × List (List UInt8)
  | [] => (l, [])
  | c :: keys =>
      let rest := (l.key c).1.feed keys
      (rest.1, (l.key c).2.toList ++ rest.2)

theorem Line.key_enter (l : Line) :
    l.key 13 = (⟨[], l.escState⟩, some (l.typed.takeWhile (· != 0))) :=
  rfl

theorem Line.key_snd_of_not_enter (l : Line) {c : UInt8} (other : isEnter c = false) :
    (l.key c).2 = none := by
  unfold Line.key
  split_ifs <;> simp_all

theorem Line.feed_append (l : Line) (xs ys : List UInt8) :
    l.feed (xs ++ ys) =
      (((l.feed xs).1.feed ys).1, (l.feed xs).2 ++ ((l.feed xs).1.feed ys).2) := by
  induction xs generalizing l with
  | nil => rfl
  | cons c xs ih => simp only [List.cons_append, Line.feed, List.append_eq, ih, List.append_assoc]

/-- Bytes without an Enter hand over no line. -/
theorem Line.feed_snd_of_no_enter (l : Line) {keys : List UInt8}
    (noEnter : ∀ c ∈ keys, isEnter c = false) : (l.feed keys).2 = [] := by
  induction keys generalizing l with
  | nil => rfl
  | cons c keys ih =>
      simp only [List.mem_cons, forall_eq_or_imp] at noEnter
      simp only [Line.feed, l.key_snd_of_not_enter noEnter.1, Option.toList_none,
        ih _ noEnter.2, List.append_nil]

/-- The line a handler holds. -/
def InputHandler.view (ih : InputHandler) : Line :=
  ⟨ih.typed, ih.escState⟩

@[simp]
theorem view_typed (ih : InputHandler) : ih.view.typed = ih.typed := rfl

@[simp]
theorem view_escState (ih : InputHandler) : ih.view.escState = ih.escState := rfl

/-! ## Bytes, stores and the C string -/

/-- A NUL at `n` ends the C string within the first `n` bytes. -/
theorem takeWhile_take_of_nul {l : List UInt8} {n : Nat} (nul : l[n]? = some 0) :
    (l.take n).takeWhile (· != 0) = l.takeWhile (· != 0) := by
  induction l generalizing n with
  | nil => simp at nul
  | cons a l ih =>
      cases n with
      | zero => simp_all
      | succ n => simp only [List.take_succ_cons, List.takeWhile_cons, ih (by simpa using nul)]

/-- A write at or past `m` leaves the first `m` bytes. -/
theorem take_set_of_le {l : List UInt8} {m n : Nat} (c : UInt8) (h : m ≤ n) :
    (l.set n c).take m = l.take m := by
  rw [List.set_take, List.set_eq_of_length_le ((List.length_take_le _ _).trans h)]

/-- A write just past the first `n` bytes extends them. -/
theorem take_succ_set {l : List UInt8} {n : Nat} (c : UInt8) (h : n < l.length) :
    (l.set n c).take (n + 1) = l.take n ++ [c] := by
  rw [List.take_succ, take_set_of_le c (Nat.le_refl n), List.getElem?_set_self h]
  rfl

theorem ofFn_update (f : Fin tiMaxline → UInt8) (index : Fin tiMaxline) (c : UInt8) :
    List.ofFn (Function.update f index c) = (List.ofFn f).set index c := by
  refine List.ext_getElem (by simp only [List.length_ofFn, List.length_set]) fun i _ _ => ?_
  simp only [List.getElem_set, List.getElem_ofFn, Function.update_apply, Fin.ext_iff, eq_comm]

@[simp]
theorem bytes_mk (buffer : Fin tiMaxline → UInt8) (length : Nat) (escState : Int) :
    (InputHandler.mk buffer length escState).bytes = List.ofFn buffer := rfl

theorem store_of_lt (ih : InputHandler) {index : Nat} (c : UInt8) (h : index < tiMaxline) :
    ih.store index c = some { ih with buffer := Function.update ih.buffer ⟨index, h⟩ c } :=
  dif_pos h

/-- A byte just written reads back. -/
theorem getElem?_ofFn_update (f : Fin tiMaxline → UInt8) (index : Fin tiMaxline) (c : UInt8) :
    (List.ofFn (Function.update f index c))[(index : Nat)]? = some c := by
  rw [ofFn_update, List.getElem?_set_self (by rw [List.length_ofFn]; exact index.isLt)]

/-! ## The invariant -/

/-- What every handler the loop reaches satisfies. -/
structure InputHandler.Wf (ih : InputHandler) : Prop where
  length_le : ih.length ≤ tiMaxline - 1
  /-- `buffer[length]` is inside `buffer` and holds NUL. -/
  terminated : ih.bytes[ih.length]? = some 0
  escState_mem : ih.escState = 0 ∨ ih.escState = 1 ∨ ih.escState = 2

section Wf

variable {ih : InputHandler}

theorem InputHandler.Wf.length_lt (wf : ih.Wf) : ih.length < tiMaxline :=
  Nat.lt_of_le_of_lt wf.length_le (by decide)

theorem InputHandler.Wf.length_lt_ofFn (wf : ih.Wf) : ih.length < (List.ofFn ih.buffer).length :=
  (List.length_ofFn ih.buffer).symm ▸ wf.length_lt

theorem InputHandler.Wf.length_typed (wf : ih.Wf) : ih.typed.length = ih.length :=
  List.length_take_of_le wf.length_lt_ofFn.le

theorem InputHandler.Wf.withEscState (wf : ih.Wf) {e : Int} (mem : e = 0 ∨ e = 1 ∨ e = 2) :
    ({ ih with escState := e } : InputHandler).Wf :=
  ⟨wf.length_le, wf.terminated, mem⟩

end Wf

theorem tiInputInit_wf (old : InputHandler) : (tiInputInit old).Wf :=
  ⟨Nat.zero_le _, getElem?_ofFn_update _ ⟨0, by decide⟩ 0, .inl rfl⟩

theorem view_tiInputInit (old : InputHandler) : (tiInputInit old).view = ⟨[], 0⟩ := rfl

/-! ## Each function writes inside `buffer` and moves the line as `Line.key` does -/

section Steps

variable {ih : InputHandler}

theorem tiProcessBackspace_spec (wf : ih.Wf) :
    ∃ ih', tiProcessBackspace ih = some ih' ∧ ih'.Wf ∧
      ih'.view = ⟨ih.typed.dropLast, ih.escState⟩ := by
  unfold tiProcessBackspace
  split_ifs with nonempty
  · have bound : ih.length - 1 < tiMaxline := (Nat.sub_le _ _).trans_lt wf.length_lt
    refine ⟨_, store_of_lt _ 0 bound, ⟨(Nat.sub_le _ _).trans wf.length_le, ?_, wf.escState_mem⟩, ?_⟩
    · exact getElem?_ofFn_update _ ⟨_, bound⟩ 0
    · simp only [InputHandler.view, InputHandler.typed, bytes_mk, ofFn_update,
        take_set_of_le _ (Nat.le_refl _), Line.mk.injEq, and_true]
      exact (List.dropLast_take wf.length_lt_ofFn).symm
  · have empty : ih.length = 0 := Nat.eq_zero_of_not_pos nonempty
    refine ⟨ih, rfl, wf, ?_⟩
    simp only [InputHandler.view, InputHandler.typed, empty, List.take_zero, List.dropLast_nil]

theorem append_spec (wf : ih.Wf) (c : UInt8) :
    ∃ ih', ih.append c = some ih' ∧ ih'.Wf ∧
      ih'.view =
        if ih.length + 1 < tiMaxline then ⟨ih.typed ++ [c], ih.escState⟩ else ih.view := by
  unfold InputHandler.append
  split_ifs with room
  · rw [store_of_lt _ c wf.length_lt, Option.some_bind]
    refine ⟨_, store_of_lt _ 0 room, ⟨Nat.le_sub_one_of_lt room, ?_, wf.escState_mem⟩, ?_⟩
    · exact getElem?_ofFn_update _ ⟨_, room⟩ 0
    · simp only [InputHandler.view, InputHandler.typed, InputHandler.bytes, ofFn_update,
        take_set_of_le _ (Nat.le_refl _), take_succ_set c wf.length_lt_ofFn]
  · exact ⟨ih, rfl, wf, rfl⟩

theorem tiProcessChar_spec (wf : ih.Wf) (c : UInt8) :
    ∃ ih', tiProcessChar ih c = some ih' ∧ ih'.Wf ∧ ih'.view = ih.view.filter c := by
  rcases wf.escState_mem with rest | escaped | bracketed
  · by_cases escape : c = 0x1B
    · simp only [tiProcessChar, Line.filter, view_escState, rest, escape, and_self, if_true]
      exact ⟨_, rfl, wf.withEscState (by decide), rfl⟩
    · have plain : ih.escState ≠ 1 ∧ ih.escState ≠ 2 := by rw [rest]; decide
      simp only [tiProcessChar, Line.filter, view_escState, view_typed, wf.length_typed,
        if_pos rest, escape, and_false, if_false, if_neg plain.1, if_neg plain.2]
      exact append_spec wf c
  · simp only [tiProcessChar, Line.filter, view_escState, escaped, if_true, if_false]
    exact ⟨_, rfl, wf.withEscState (by split <;> decide), rfl⟩
  · simp only [tiProcessChar, Line.filter, view_escState, bracketed, if_true, if_false]
    exact ⟨_, rfl, wf.withEscState (by decide), rfl⟩

/-- Setting `buffer[length]` to NUL makes the C string the typed line up to its first NUL. -/
theorem cString_terminated (ih : InputHandler) (h : ih.length < tiMaxline) :
    ({ ih with buffer := Function.update ih.buffer ⟨ih.length, h⟩ 0 } : InputHandler).cString =
      ih.typed.takeWhile (· != 0) := by
  show (List.ofFn (Function.update ih.buffer ⟨ih.length, h⟩ 0)).takeWhile (· != 0) =
    ((List.ofFn ih.buffer).take ih.length).takeWhile (· != 0)
  rw [← takeWhile_take_of_nul (getElem?_ofFn_update ih.buffer ⟨ih.length, h⟩ 0), ofFn_update,
    take_set_of_le _ (Nat.le_refl _)]

theorem keystroke_spec (wf : ih.Wf) (c : UInt8) :
    ∃ ih', keystroke ih c = some (ih', (ih.view.key c).2) ∧ ih'.Wf ∧
      ih'.view = (ih.view.key c).1 := by
  unfold keystroke Line.key
  split_ifs
  case pos =>
    rw [store_of_lt _ 0 wf.length_lt, Option.some_bind, store_of_lt _ 0 (by decide),
      Option.map_some', cString_terminated]
    exact ⟨_, rfl, ⟨Nat.zero_le _, getElem?_ofFn_update _ _ 0, wf.escState_mem⟩, rfl⟩
  case pos =>
    obtain ⟨ih', erased, wf', view'⟩ := tiProcessBackspace_spec wf
    exact ⟨ih', by rw [erased]; rfl, wf', view'⟩
  case neg =>
    obtain ⟨ih', filtered, wf', view'⟩ := tiProcessChar_spec wf c
    exact ⟨ih', by rw [filtered]; rfl, wf', view'⟩

end Steps

/-! ## The loop -/

/--
From a well-formed handler the loop writes only inside `buffer`, stays well
formed, and hands over the lines `Line.feed` does.
-/
theorem feed_spec {ih : InputHandler} (wf : ih.Wf) (keys : List UInt8) :
    ∃ ih', feed ih keys = some (ih', (ih.view.feed keys).2) ∧ ih'.Wf ∧
      ih'.view = (ih.view.feed keys).1 := by
  induction keys generalizing ih with
  | nil => exact ⟨ih, rfl, wf, rfl⟩
  | cons c keys step =>
      obtain ⟨next, stepped, wf', view'⟩ := keystroke_spec wf c
      obtain ⟨last, fed, wf'', view''⟩ := step wf'
      refine ⟨last, ?_, wf'', view''.trans (by rw [view']; rfl)⟩
      rw [feed, stepped, Option.some_bind]
      simp only [fed, view', Option.map_some']
      rfl

theorem lines_of_wf {ih : InputHandler} (wf : ih.Wf) (keys : List UInt8) :
    (feed ih keys).map Prod.snd = some (ih.view.feed keys).2 := by
  obtain ⟨_, fed, -⟩ := feed_spec wf keys
  rw [fed, Option.map_some']

/--
Whatever bytes are typed after `ti_input_init`, every handler the loop
reaches keeps `length ≤ TI_MAXLINE - 1`, a NUL at `buffer[length]` and
`esc_state` in `{0, 1, 2}`, and no write falls outside `buffer`.
-/
theorem input_loop_in_bounds (old : InputHandler) (keys : List UInt8) :
    ∃ ih lines, feed (tiInputInit old) keys = some (ih, lines) ∧ ih.Wf := by
  obtain ⟨ih, fed, wf, -⟩ := feed_spec (tiInputInit_wf old) keys
  exact ⟨ih, _, fed, wf⟩

/--
Enter clears the line but not the escape filter: an ESC before Enter makes
the filter swallow the next line's first byte, so `a` typed after it is lost,
while from a fresh handler it is the line.
-/
theorem enter_keeps_escape_state (old : InputHandler) :
    (feed (tiInputInit old) [0x1B, 13, 97, 13]).map Prod.snd = some [[], []] ∧
      (feed (tiInputInit old) [97, 13]).map Prod.snd = some [[97]] := by
  rw [lines_of_wf (tiInputInit_wf old), lines_of_wf (tiInputInit_wf old), view_tiInputInit]
  decide

/--
Nothing carries across Enter when the filter is at rest there: if `k1`
types no Enter and leaves no escape sequence open, every line after its
Enter is one that `k2` gives from a fresh handler.
-/
theorem lines_after_enter_of_rest (old : InputHandler) {k1 : List UInt8} (k2 : List UInt8)
    (noEnter : ∀ c ∈ k1, isEnter c = false)
    (rest : ((⟨[], 0⟩ : Line).feed k1).1.escState = 0) :
    ((feed (tiInputInit old) (k1 ++ 13 :: k2)).map Prod.snd).map List.tail =
      (feed (tiInputInit old) k2).map Prod.snd := by
  have lines := lines_of_wf (tiInputInit_wf old)
  rw [lines, lines, view_tiInputInit, Line.feed_append,
    Line.feed_snd_of_no_enter _ noEnter, Option.map_some']
  simp only [Line.feed, Line.key_enter, rest, List.nil_append, Option.toList_some,
    List.singleton_append, List.tail_cons]

/-- `a` typed, then Enter: the line `b` after it is the one typed from a fresh handler. -/
theorem lines_after_enter_of_rest_for_a :
    (∀ c ∈ [(97 : UInt8)], isEnter c = false) ∧
      ((⟨[], 0⟩ : Line).feed [97]).1.escState = 0 ∧
      ((feed (tiInputInit ⟨fun _ => 0, 0, 0⟩) ([97] ++ 13 :: [98, 13])).map Prod.snd).map
          List.tail =
        (feed (tiInputInit ⟨fun _ => 0, 0, 0⟩) [98, 13]).map Prod.snd :=
  have noEnter : ∀ c ∈ [(97 : UInt8)], isEnter c = false := by decide
  have rest : ((⟨[], 0⟩ : Line).feed [97]).1.escState = 0 := by decide
  ⟨noEnter, rest, lines_after_enter_of_rest _ [98, 13] noEnter rest⟩

/-! ## The lines handed over -/

/-- A line the editor can hold: no Enter byte among the typed bytes, and room for the NUL. -/
structure Line.Clean (l : Line) : Prop where
  noEnter : ∀ c ∈ l.typed, isEnter c = false
  short : l.typed.length ≤ tiMaxline - 1

/-- A line handed over at an Enter: at most `TI_MAXLINE - 1` bytes, none of them NUL, CR or LF. -/
def Handed (line : List UInt8) : Prop :=
  (∀ c ∈ line, isEnter c = false ∧ c ≠ 0) ∧ line.length ≤ tiMaxline - 1

section Clean

variable {l : Line}

theorem Line.clean_initial : (⟨[], 0⟩ : Line).Clean :=
  ⟨(fun _ member => nomatch member), Nat.zero_le _⟩

theorem Line.Clean.handed (clean : l.Clean) : Handed (l.typed.takeWhile (· != 0)) :=
  ⟨fun c member => ⟨clean.noEnter c ((List.takeWhile_sublist _).subset member),
      by simpa using List.mem_takeWhile_imp member⟩,
    (List.takeWhile_sublist _).length_le.trans clean.short⟩

theorem Line.Clean.filter (clean : l.Clean) {c : UInt8} (other : isEnter c = false) :
    (l.filter c).Clean := by
  unfold Line.filter
  split_ifs
  -- every branch but the append keeps the typed bytes
  all_goals first | exact ⟨clean.noEnter, clean.short⟩ | skip
  refine ⟨fun d member => ?_, ?_⟩
  · rcases List.mem_append.mp member with old | new
    · exact clean.noEnter d old
    · rw [List.mem_singleton.mp new]; exact other
  · rw [List.length_append, List.length_singleton]; omega

/-- One byte keeps the line clean, and an Enter hands over a C string of the typed bytes. -/
theorem Line.Clean.key (clean : l.Clean) (c : UInt8) :
    (l.key c).1.Clean ∧ ∀ line, (l.key c).2 = some line → Handed line := by
  unfold Line.key
  split_ifs with enter
  · exact ⟨⟨(fun _ member => nomatch member), Nat.zero_le _⟩,
      fun _ handed => Option.some.inj handed ▸ clean.handed⟩
  · exact ⟨⟨fun d member => clean.noEnter d (List.dropLast_subset _ member),
      (List.dropLast_sublist _).length_le.trans clean.short⟩, fun _ none => nomatch none⟩
  · exact ⟨clean.filter (Bool.eq_false_iff.mpr enter), fun _ none => nomatch none⟩

theorem Line.Clean.feed (clean : l.Clean) (keys : List UInt8) :
    (l.feed keys).1.Clean ∧ ∀ line ∈ (l.feed keys).2, Handed line := by
  induction keys generalizing l with
  | nil => exact ⟨clean, fun _ none => nomatch none⟩
  | cons c keys ih =>
      obtain ⟨next, handed⟩ := clean.key c
      obtain ⟨last, lines⟩ := ih next
      refine ⟨last, fun line member => ?_⟩
      rcases List.mem_append.mp member with here | later
      · exact handed line (Option.mem_toList.mp here)
      · exact lines line later

end Clean

/-- Every line the loop hands over after `ti_input_init` is a short C string without CR or LF. -/
theorem handed_of_feed {old ih : InputHandler} {keys : List UInt8} {lines : List (List UInt8)}
    (fed : feed (tiInputInit old) keys = some (ih, lines)) : ∀ line ∈ lines, Handed line := by
  have handed := lines_of_wf (tiInputInit_wf old) keys
  rw [fed, view_tiInputInit, Option.map_some', Option.some.injEq] at handed
  rw [show lines = _ from handed]
  exact (Line.clean_initial.feed keys).2

end ChatServer.TermInput
