import ChatServer.Basic
import Mathlib.Data.Nat.Digits

/-!
# Command framing in `client_handler`

A session's handler reads its client's TCP stream with one `recv` of at most
`BUF_SIZE - 1` bytes per command, NUL-terminates the chunk and splits it with
`strtok`: the first token picks the command and the following `strtok(NULL,
...)` calls its arguments.  After a valid `/sendfile` it reads exactly the
announced number of payload bytes with further `recv` calls, each asking for
what is still missing.  The network decides how the client's bytes are cut
into the chunks `recv` returns.

This module models one handler's loop: `strtok` resuming in the handler's
own chunk, `strtoul`, the dispatch of one chunk, and the loop over a
sequence of chunks, recording the commands dispatched and the payloads of
the uploads built; and, on the client's side, the lines `process_command`
sends.  A chunk is one command: when two command lines arrive in one chunk
only the first is dispatched.  When every command line arrives alone in its
chunk, the handler dispatches exactly the client's commands and every
upload carries its payload byte for byte, however the payloads are cut.

glibc's `strtok` resumes wherever the last call of any thread stopped.
`ChatServer.SharedStrtok` models the handler threads with that shared save
pointer and shows that this loop is each handler's loop exactly when no two
handlers tokenize a command at once.

`malloc` of the payload buffer is taken to succeed here; its failure is a
step of `ChatServer.UploadPipeline`.
-/

namespace ChatServer.CommandParsing

open ChatServer.Basic

/-! ## `strtok` and `strtoul` -/

/--
`strtok` resuming at `rest`, the C string left after the last call: skip
delimiters, return the token up to the next delimiter, and resume after
that delimiter (which `strtok` overwrote with NUL); `none` once only
delimiters are left.  Where the process-wide save pointer leaves `rest` is
`ChatServer.SharedStrtok.strtokR`.
-/
def strtok (delims : List Char) (rest : List Char) : Option (List Char) × List Char :=
  match rest.dropWhile delims.contains with
  | [] => (none, [])
  | start =>
      (some (start.takeWhile fun c => !delims.contains c),
        (start.dropWhile fun c => !delims.contains c).drop 1)

/-- The value of the leading decimal digits of `s`. -/
def decimalValue (s : List Char) : Nat :=
  (s.takeWhile Char.isDigit).foldl (fun acc c => 10 * acc + (c.toNat - '0'.toNat)) 0

/-- `ULONG_MAX` of the 64-bit `unsigned long` `strtoul` returns. -/
def ulongMax : Nat := 2 ^ 64 - 1

/-- `isspace` in the C locale: space, `\t`, `\n`, `\v`, `\f` and `\r`. -/
def isSpace (c : Char) : Bool :=
  c == ' ' || c == '\t' || c == '\n' || c == Char.ofNat 11 || c == Char.ofNat 12 || c == '\r'

/--
`strtoul(s, NULL, 10)`: leading white space as `isspace` says, an optional
sign, then decimal digits; out of range it returns `ULONG_MAX`, and a minus
sign negates modulo `2^64`.
-/
def strtoul (s : List Char) : Nat :=
  let value (digits : List Char) : Nat := min (decimalValue digits) ulongMax
  match s.dropWhile isSpace with
  | '+' :: digits => value digits
  | '-' :: digits =>
      if ulongMax < decimalValue digits then ulongMax else (2 ^ 64 - value digits) % 2 ^ 64
  | digits => value digits

/-! ## Dispatch of one chunk -/

/-- The command `client_handler` picks from a chunk, with its arguments as `strtok` cut them. -/
inductive Dispatch where
  | exit
  | whisper (target message : Option (List Char))
  | join (roomName extra : Option (List Char))
  | leave
  | broadcast (message : Option (List Char))
  | sendfile (filename target size : Option (List Char))
  /-- No token, or an unknown one: `[ERROR] Unknown command.` -/
  | unknown
  deriving DecidableEq, Repr

/-- The delimiters `" \r\n"` of the command token and of `/sendfile`'s arguments. -/
def spaceOrEol : List Char := [' ', '\r', '\n']

/--
The branch of `client_handler` for the command token `cmd`, with `rest` the
chunk after it: the `strtok(NULL, ...)` calls of the matching branch.
-/
def dispatchCommand (cmd rest : List Char) : Dispatch :=
  if cmd = "/exit".toList then .exit
  else if cmd = "/whisper".toList then
    let target := strtok [' '] rest
    .whisper target.1 (strtok ['\n'] target.2).1
  else if cmd = "/join".toList then
    let roomName := strtok [' ', '\n'] rest
    .join roomName.1 (strtok [' ', '\n'] roomName.2).1
  else if cmd = "/leave".toList then .leave
  else if cmd = "/broadcast".toList then .broadcast (strtok ['\n'] rest).1
  else if cmd = "/sendfile".toList then
    let filename := strtok spaceOrEol rest
    let target := strtok spaceOrEol filename.2
    .sendfile filename.1 target.1 (strtok spaceOrEol target.2).1
  else .unknown

/-- The command `client_handler` dispatches for one received chunk, up to its first NUL. -/
def dispatch (chunk : List Char) : Dispatch :=
  match strtok spaceOrEol (chunk.takeWhile (· ≠ Char.ofNat 0)) with
  | (none, _) => .unknown
  | (some cmd, rest) => dispatchCommand cmd rest

/-! ## The handler's loop over received chunks -/

/-- What the next `recv` of the handler is for. -/
inductive Mode where
  /-- `recv(tcp_fd, buf, sizeof(buf) - 1, 0)` for a command. -/
  | command
  /-- The payload loop of `/sendfile`: `size` bytes announced, `received` so far. -/
  | payload (size : Nat) (received : List Char)
  /-- The loop has ended at `/exit`. -/
  | stopped
  deriving DecidableEq, Repr

/-- The handler's mode, the commands it has dispatched and the payloads of its uploads. -/
structure Session where
  mode : Mode
  dispatched : List Dispatch
  uploads : List (List Char)
  deriving DecidableEq, Repr

/-- A session before its first command. -/
def Session.initial : Session :=
  ⟨.command, [], []⟩

/-- The most bytes the next `recv` asks for. -/
def Session.limit (s : Session) : Nat :=
  match s.mode with
  | .command => bufSize - 1
  | .payload size received => size - received.length
  | .stopped => 0

/-- The mode after dispatching `command`: `/exit` stops, a valid `/sendfile` reads its payload. -/
def modeAfter : Dispatch → Mode
  | .exit => .stopped
  | .sendfile (some _) (some _) (some size) =>
      let filesize := strtoul size
      if filesize = 0 ∨ maxFileSize < filesize then .command else .payload filesize []
  | _ => .command

/-- The handler's work on one chunk returned by `recv`. -/
def Session.receive (s : Session) (chunk : List Char) : Session :=
  match s.mode with
  | .command =>
      let command := dispatch chunk
      { s with mode := modeAfter command, dispatched := s.dispatched ++ [command] }
  | .payload size received =>
      let received := received ++ chunk
      if size ≤ received.length then
        { s with mode := .command, uploads := s.uploads ++ [received] }
      else { s with mode := .payload size received }
  | .stopped => s

/-- The handler's work on a sequence of chunks. -/
def Session.feed (s : Session) (chunks : List (List Char)) : Session :=
  chunks.foldl Session.receive s

/-- Chunks `recv` can return: each non-empty and no longer than the handler asked for. -/
def Session.Fits (s : Session) : List (List Char) → Prop
  | [] => True
  | chunk :: chunks =>
      (0 < chunk.length ∧ chunk.length ≤ s.limit) ∧ (s.receive chunk).Fits chunks

instance Session.decidableFits : (s : Session) → (chunks : List (List Char)) →
    Decidable (s.Fits chunks)
  | _, [] => isTrue trivial
  | s, chunk :: chunks =>
      haveI := Session.decidableFits (s.receive chunk) chunks
      inferInstanceAs
        (Decidable ((0 < chunk.length ∧ chunk.length ≤ s.limit) ∧
          (s.receive chunk).Fits chunks))

/-! ## `strtok` on clean tokens -/

section Strtok

variable {delims token rest : List Char}

/-- Once the leading delimiters are skipped, `strtok` cuts the token at the next delimiter. -/
theorem strtok_of_start {start : List Char} (skipped : rest.dropWhile delims.contains = start)
    (nonempty : start ≠ []) :
    strtok delims rest = (some (start.takeWhile fun c => !delims.contains c),
      (start.dropWhile fun c => !delims.contains c).drop 1) := by
  unfold strtok
  rw [skipped]
  split
  · contradiction
  · rfl

/-- A token free of delimiters and ended by one is returned whole; the scan resumes after it. -/
theorem strtok_token {sep : Char} (nonempty : token ≠ [])
    (clean : ∀ c ∈ token, delims.contains c = false) (separated : delims.contains sep = true) :
    strtok delims (token ++ sep :: rest) = (some token, rest) := by
  have scanned : ∀ c ∈ token, (!delims.contains c) = true := fun c member => by
    rw [clean c member]; rfl
  obtain ⟨first, others, rfl⟩ := List.exists_cons_of_ne_nil nonempty
  rw [List.cons_append, strtok_of_start
      (List.dropWhile_cons_of_neg (by rw [clean first (List.mem_cons_self _ _)]; decide))
      (List.cons_ne_nil _ _), ← List.cons_append,
    List.takeWhile_append_of_pos scanned, List.dropWhile_append_of_pos scanned]
  simp only [List.takeWhile_cons, List.dropWhile_cons, separated, Bool.not_true,
    Bool.false_eq_true, if_false, List.append_nil, List.drop_one, List.tail_cons]

/-- Nothing but delimiters left: `strtok` returns `NULL`. -/
theorem strtok_nil : strtok delims [] = (none, []) :=
  rfl

/--
What `strtok` returns: a non-empty token free of delimiters, cut from `rest`
after the skipped delimiters, followed by at most one delimiter and the rest.
-/
theorem strtok_eq_some {rest' : List Char} (cut : strtok delims rest = (some token, rest')) :
    token ≠ [] ∧ (∀ c ∈ token, delims.contains c = false) ∧
      ∃ skipped sep, rest = skipped ++ token ++ sep ++ rest' ∧ sep.length ≤ 1 := by
  unfold strtok at cut
  generalize started : rest.dropWhile delims.contains = start at cut
  cases start with
  | nil => cases cut
  | cons first others =>
      simp only [Prod.mk.injEq, Option.some.injEq] at cut
      obtain ⟨rfl, rfl⟩ := cut
      have head : delims.contains first = false := by
        simpa [started] using List.head_dropWhile_not delims.contains rest (by simp [started])
      refine ⟨by simpa [List.takeWhile_cons] using head,
        fun c member => by simpa using List.mem_takeWhile_imp member,
        rest.takeWhile delims.contains,
        ((first :: others).dropWhile fun c => !delims.contains c).take 1, ?_,
        List.length_take_le 1 _⟩
      rw [List.append_assoc _ (List.take 1 _), List.take_append_drop, List.append_assoc,
        List.takeWhile_append_dropWhile, ← started, List.takeWhile_append_dropWhile]

end Strtok

/-! ## Decimal sizes -/

/-- `Nat.toDigitsCore` prepends its digits to the accumulator. -/
theorem toDigitsCore_acc (fuel n : Nat) (ds : List Char) :
    Nat.toDigitsCore 10 fuel n ds = Nat.toDigitsCore 10 fuel n [] ++ ds := by
  induction fuel generalizing n ds with
  | zero => rfl
  | succ fuel ih =>
      simp only [Nat.toDigitsCore]
      split_ifs
      · rfl
      · rw [ih, ih (n / 10) [_]]
        simp

theorem digitChar_isDigit {d : Nat} (small : d < 10) : (Nat.digitChar d).isDigit = true := by
  have all : ∀ d < 10, (Nat.digitChar d).isDigit = true := by decide
  exact all d small

theorem digitChar_value {d : Nat} (small : d < 10) :
    (Nat.digitChar d).toNat - '0'.toNat = d := by
  have all : ∀ d < 10, (Nat.digitChar d).toNat - '0'.toNat = d := by decide
  exact all d small

/-- With enough fuel the digits of `n` are non-empty decimal digits whose value is `n`. -/
theorem toDigitsCore_spec (fuel n : Nat) (enough : n < fuel) :
    Nat.toDigitsCore 10 fuel n [] ≠ [] ∧
      (∀ c ∈ Nat.toDigitsCore 10 fuel n [], c.isDigit = true) ∧
      (Nat.toDigitsCore 10 fuel n []).foldl
        (fun acc c => 10 * acc + (c.toNat - '0'.toNat)) 0 = n := by
  induction fuel generalizing n with
  | zero => omega
  | succ fuel ih =>
      have small := Nat.mod_lt n (show 10 > 0 by decide)
      have digit := digitChar_value small
      simp only [Nat.toDigitsCore]
      split_ifs with last
      · refine ⟨List.cons_ne_nil _ _, by simp [digitChar_isDigit small], ?_⟩
        simp only [List.foldl_cons, List.foldl_nil, Nat.mul_zero, Nat.zero_add, digit]
        omega
      · obtain ⟨-, digits, value⟩ := ih (n / 10) (by omega)
        rw [toDigitsCore_acc]
        refine ⟨by simp, fun c member => ?_, ?_⟩
        · rcases List.mem_append.mp member with inner | final
          · exact digits c inner
          · rw [List.mem_singleton.mp final]
            exact digitChar_isDigit small
        · rw [List.foldl_append, value]
          simp only [List.foldl_cons, List.foldl_nil, digit]
          omega

theorem isSpace_of_isDigit {c : Char} (digit : c.isDigit = true) : isSpace c = false := by
  refine Bool.eq_false_iff.mpr fun space => ?_
  simp only [isSpace, Bool.or_eq_true, beq_iff_eq] at space
  rcases space with ((((rfl | rfl) | rfl) | rfl) | rfl) | rfl <;> exact absurd digit (by decide)

/-- `strtoul` reads a run of decimal digits as its value, within `ULONG_MAX`. -/
theorem strtoul_of_digits {s : List Char} (nonempty : s ≠ [])
    (digits : ∀ c ∈ s, c.isDigit = true)
    (small : decimalValue s ≤ ulongMax) : strtoul s = decimalValue s := by
  obtain ⟨first, others, rfl⟩ := List.exists_cons_of_ne_nil nonempty
  have digit := digits first (List.mem_cons_self _ _)
  unfold strtoul
  rw [List.dropWhile_cons_of_neg (by rw [isSpace_of_isDigit digit]; decide)]
  split
  next sign =>
    rw [(List.cons.inj sign).1] at digit
    exact absurd digit (by decide)
  next sign =>
    rw [(List.cons.inj sign).1] at digit
    exact absurd digit (by decide)
  · exact Nat.min_eq_left small

/-- The size `"%zu"` formats is read back by `strtoul`. -/
theorem strtoul_toDigits (n : Nat) (small : n ≤ ulongMax) : strtoul (Nat.toDigits 10 n) = n := by
  obtain ⟨nonempty, digits, value⟩ := toDigitsCore_spec (n + 1) n (Nat.lt_succ_self n)
  have read : decimalValue (Nat.toDigitsCore 10 (n + 1) n []) = n := by
    rw [decimalValue, List.takeWhile_eq_self_iff.mpr digits, value]
  rw [Nat.toDigits, strtoul_of_digits nonempty digits (by rw [read]; exact small), read]


/-! ## Receiving in each mode -/

section Receive

variable {s : Session} {chunk : List Char}

theorem receive_of_command (commanding : s.mode = .command) :
    s.receive chunk =
      ⟨modeAfter (dispatch chunk), s.dispatched ++ [dispatch chunk], s.uploads⟩ := by
  simp only [Session.receive, commanding]

theorem receive_of_payload_done {size : Nat} {received : List Char}
    (reading : s.mode = .payload size received) (done : size ≤ (received ++ chunk).length) :
    s.receive chunk = ⟨.command, s.dispatched, s.uploads ++ [received ++ chunk]⟩ := by
  simp only [Session.receive, reading, if_pos done]

theorem receive_of_payload_more {size : Nat} {received : List Char}
    (reading : s.mode = .payload size received) (more : (received ++ chunk).length < size) :
    s.receive chunk = ⟨.payload size (received ++ chunk), s.dispatched, s.uploads⟩ := by
  simp only [Session.receive, reading, if_neg (Nat.not_le_of_lt more)]

end Receive

theorem feed_append (s : Session) (chunks more : List (List Char)) :
    s.feed (chunks ++ more) = (s.feed chunks).feed more :=
  List.foldl_append _ _ _ _

/-- Until the announced size is reached, the payload loop takes every chunk as file bytes. -/
theorem feed_payload_short (chunks : List (List Char)) (s : Session) {size : Nat}
    {received : List Char} (reading : s.mode = .payload size received)
    (short : (received ++ chunks.flatten).length < size) :
    s.feed chunks = ⟨.payload size (received ++ chunks.flatten), s.dispatched, s.uploads⟩ := by
  induction chunks generalizing s received with
  | nil =>
      obtain ⟨mode, dispatched, uploads⟩ := s
      cases reading
      simp [Session.feed]
  | cons chunk chunks ih =>
      have more : (received ++ chunk).length < size := by
        simp only [List.flatten_cons, List.length_append] at short ⊢; omega
      rw [Session.feed, List.foldl_cons, ← Session.feed, receive_of_payload_more reading more,
        ih _ rfl (by simpa using short)]
      simp

/-- Non-empty chunks short of the announced size fit the payload loop's `recv` calls. -/
theorem fits_payload_short (chunks : List (List Char))
    (nonempty : ∀ chunk ∈ chunks, chunk ≠ []) (s : Session) {size : Nat} {received : List Char} (reading : s.mode = .payload size received)
    (short : (received ++ chunks.flatten).length < size) : s.Fits chunks := by
  induction chunks generalizing s received with
  | nil => trivial
  | cons chunk chunks ih =>
      have more : (received ++ chunk).length < size := by
        simp only [List.flatten_cons, List.length_append] at short ⊢; omega
      refine ⟨⟨List.length_pos.mpr (nonempty chunk (List.mem_cons_self _ _)), ?_⟩, ?_⟩
      · simp only [Session.limit, reading]
        simp only [List.length_append] at more
        omega
      · rw [receive_of_payload_more reading more]
        exact ih (fun c member => nonempty c (List.mem_cons_of_mem _ member)) _ rfl
          (by simpa using short)

theorem fits_append (s : Session) (chunks more : List (List Char)) :
    s.Fits (chunks ++ more) ↔ s.Fits chunks ∧ (s.feed chunks).Fits more := by
  induction chunks generalizing s with
  | nil => simp [Session.Fits, Session.feed]
  | cons chunk chunks ih => simp [Session.Fits, Session.feed, ih, and_assoc]

/--
The payload loop reads the announced bytes however the network cuts them,
then builds the upload from exactly those bytes and returns to commands.
-/
theorem feed_payload (pieces : List (List Char)) (nonempty : ∀ piece ∈ pieces, piece ≠ [])
    (s : Session) (received : List Char) {size : Nat} (reading : s.mode = .payload size received)
    (pending : received.length < size) (exact : (received ++ pieces.flatten).length = size) :
    s.Fits pieces ∧
      s.feed pieces = ⟨.command, s.dispatched, s.uploads ++ [received ++ pieces.flatten]⟩ := by
  induction pieces generalizing s received with
  | nil => simp at exact; omega
  | cons piece rest ih =>
      have positive := List.length_pos.mpr (nonempty piece (List.mem_cons_self _ _))
      have within : piece.length ≤ s.limit := by
        simp only [Session.limit, reading]
        simp only [List.flatten_cons, List.length_append] at exact
        omega
      rcases rest with _ | ⟨next, others⟩
      · have done : size ≤ (received ++ piece).length := by simp at exact ⊢; omega
        simp [Session.Fits, Session.feed, receive_of_payload_done reading done, positive, within]
      · have more : (received ++ piece).length < size := by
          have := List.length_pos.mpr (nonempty next (by simp))
          simp at exact ⊢; omega
        obtain ⟨fits, fed⟩ := ih (fun p member => nonempty p (List.mem_cons_of_mem _ member))
          (s.receive piece) (received ++ piece) (by rw [receive_of_payload_more reading more])
          more (by simpa using exact)
        refine ⟨⟨⟨positive, within⟩, fits⟩, ?_⟩
        rw [Session.feed, List.foldl_cons, ← Session.feed, fed,
          receive_of_payload_more reading more]
        simp


/-! ## The client's commands -/

/-- A command as the client's `process_command` sends it; `/sendfile` carries the file's bytes. -/
inductive ClientCommand where
  | join (room : List Char)
  | leave
  | broadcast (message : List Char)
  | whisper (user message : List Char)
  | sendfile (filename user payload : List Char)
  | exit
  deriving DecidableEq, Repr

/--
The line `process_command` formats and `send`s: `"/join %s\n"`, `"/leave\n"`,
`"/broadcast %s\n"`, `"/whisper %s %s\n"`, `"/sendfile %s %s %zu\n"` with the
file's size, and `"/exit\n"`.
-/
def ClientCommand.line : ClientCommand → List Char
  | .join room => "/join".toList ++ ' ' :: (room ++ ['\n'])
  | .leave => "/leave\n".toList
  | .broadcast message => "/broadcast".toList ++ ' ' :: (message ++ ['\n'])
  | .whisper user message => "/whisper".toList ++ ' ' :: (user ++ ' ' :: (message ++ ['\n']))
  | .sendfile filename user payload =>
      "/sendfile".toList ++
        ' ' :: (filename ++ ' ' :: (user ++ ' ' :: (Nat.toDigits 10 payload.length ++ ['\n'])))
  | .exit => "/exit\n".toList

/-- The file's bytes sent after the line of `/sendfile`. -/
def ClientCommand.upload : ClientCommand → Option (List Char)
  | .sendfile _ _ payload => some payload
  | _ => none

/-- The dispatch that carries out the command, with its arguments as the client sent them. -/
def ClientCommand.expected : ClientCommand → Dispatch
  | .join room => .join (some room) none
  | .leave => .leave
  | .broadcast message => .broadcast (some message)
  | .whisper user message => .whisper (some user) (some message)
  | .sendfile filename user payload =>
      .sendfile (some filename) (some user) (some (Nat.toDigits 10 payload.length))
  | .exit => .exit

/-- The bytes of a C string: no NUL among them. -/
def NoNul (s : List Char) : Prop :=
  ∀ c ∈ s, c ≠ Char.ofNat 0

/-- A word `strtok` hands over whole: non-empty, with no space, CR, LF or NUL. -/
def Token (s : List Char) : Prop :=
  s ≠ [] ∧ ∀ c ∈ s, c ∉ spaceOrEol ∧ c ≠ Char.ofNat 0

/-- A message: non-empty, with no LF or NUL. -/
def Text (s : List Char) : Prop :=
  s ≠ [] ∧ ∀ c ∈ s, c ≠ '\n' ∧ c ≠ Char.ofNat 0

/--
A command the client sends: its line shorter than `BUF_SIZE`, its arguments
the words and messages the client's own `strtok` calls cut, and a file of 1
byte to 3 MiB, the sizes `process_command` lets through.
-/
def ClientCommand.WellFormed (c : ClientCommand) : Prop :=
  c.line.length < bufSize ∧
    match c with
    | .join room => Token room
    | .broadcast message => Text message
    | .whisper user message => Token user ∧ Text message
    | .sendfile filename user payload =>
        Token filename ∧ Token user ∧ 0 < payload.length ∧ payload.length ≤ maxFileSize
    | .leave | .exit => True

instance : DecidablePred NoNul := fun s =>
  inferInstanceAs (Decidable (∀ c ∈ s, c ≠ Char.ofNat 0))

instance : DecidablePred Token := fun s =>
  inferInstanceAs (Decidable (s ≠ [] ∧ ∀ c ∈ s, c ∉ spaceOrEol ∧ c ≠ Char.ofNat 0))

instance : DecidablePred Text := fun s =>
  inferInstanceAs (Decidable (s ≠ [] ∧ ∀ c ∈ s, c ≠ '\n' ∧ c ≠ Char.ofNat 0))

instance : DecidablePred ClientCommand.WellFormed
  | .join room => inferInstanceAs (Decidable (_ ∧ Token room))
  | .leave => inferInstanceAs (Decidable (_ ∧ True))
  | .broadcast message => inferInstanceAs (Decidable (_ ∧ Text message))
  | .whisper user message => inferInstanceAs (Decidable (_ ∧ Token user ∧ Text message))
  | .sendfile filename user payload =>
      inferInstanceAs (Decidable (_ ∧ Token filename ∧ Token user ∧ 0 < payload.length ∧
        payload.length ≤ maxFileSize))
  | .exit => inferInstanceAs (Decidable (_ ∧ True))

theorem NoNul.append {a b : List Char} (left : NoNul a) (right : NoNul b) : NoNul (a ++ b) :=
  List.forall_mem_append.mpr ⟨left, right⟩

theorem NoNul.space {a : List Char} (rest : NoNul a) : NoNul (' ' :: a) :=
  List.forall_mem_cons.mpr ⟨by decide, rest⟩

theorem Token.noNul {s : List Char} (token : Token s) : NoNul s :=
  fun c member => (token.2 c member).2

theorem Text.noNul {s : List Char} (text : Text s) : NoNul s :=
  fun c member => (text.2 c member).2

theorem Token.clean {s delims : List Char} (token : Token s)
    (within : ∀ c ∈ delims, c ∈ spaceOrEol) : ∀ c ∈ s, delims.contains c = false :=
  fun c member =>
    Bool.eq_false_iff.mpr fun hit => (token.2 c member).1 (within c (List.elem_iff.mp hit))

theorem Text.clean {s : List Char} (text : Text s) : ∀ c ∈ s, ['\n'].contains c = false := by
  intro c member
  simpa using (text.2 c member).1

/-- The size `"%zu"` formats is a word of decimal digits. -/
theorem token_toDigits (n : Nat) : Token (Nat.toDigits 10 n) := by
  obtain ⟨nonempty, digits, -⟩ := toDigitsCore_spec (n + 1) n (Nat.lt_succ_self n)
  refine ⟨nonempty, fun c member => ⟨fun space => ?_, fun nul => ?_⟩⟩
  · have digit := digits c member
    simp only [spaceOrEol, List.mem_cons, List.mem_singleton, List.not_mem_nil, or_false] at space
    rcases space with rfl | rfl | rfl <;> exact absurd digit (by decide)
  · have digit := digits c member
    rw [nul] at digit
    exact absurd digit (by decide)

/-- Every line the client sends is a C string. -/
theorem line_no_nul (c : ClientCommand) (wellFormed : c.WellFormed) : NoNul c.line := by
  cases c with
  | join room => exact NoNul.append (by decide) (wellFormed.2.noNul.append (by decide)).space
  | leave => decide
  | broadcast message =>
      exact NoNul.append (by decide) (wellFormed.2.noNul.append (by decide)).space
  | whisper user message =>
      exact NoNul.append (by decide)
        (wellFormed.2.1.noNul.append (wellFormed.2.2.noNul.append (by decide)).space).space
  | sendfile filename user payload =>
      exact NoNul.append (by decide) (wellFormed.2.1.noNul.append (wellFormed.2.2.1.noNul.append
        ((token_toDigits _).noNul.append (by decide)).space).space).space
  | exit => decide

/-- A chunk without NUL whose first word is `word`, ended by a space, dispatches on `word`. -/
theorem dispatch_of_word {word rest : List Char} (noNul : NoNul (word ++ ' ' :: rest))
    (nonempty : word ≠ []) (clean : ∀ c ∈ word, spaceOrEol.contains c = false) :
    dispatch (word ++ ' ' :: rest) = dispatchCommand word rest := by
  rw [dispatch, List.takeWhile_eq_self_iff.mpr (fun c member => decide_eq_true (noNul c member)),
    strtok_token nonempty clean (by decide)]

/-- `client_handler` dispatches each line the client sends as the command the client meant. -/
theorem dispatch_line (c : ClientCommand) (wellFormed : c.WellFormed) :
    dispatch c.line = c.expected := by
  have noNul := line_no_nul c wellFormed
  have space : spaceOrEol.contains ' ' = true := by decide
  cases c with
  | join room =>
      have room' : Token room := wellFormed.2
      refine (dispatch_of_word noNul (by decide) (by decide)).trans ?_
      rw [dispatchCommand, strtok_token room'.1 (room'.clean (by decide))
        (show [' ', '\n'].contains '\n' = true by decide)]
      rfl
  | leave => decide
  | exit => decide
  | broadcast message =>
      have message' : Text message := wellFormed.2
      refine (dispatch_of_word noNul (by decide) (by decide)).trans ?_
      rw [dispatchCommand,
        strtok_token message'.1 message'.clean (show ['\n'].contains '\n' = true by decide)]
      rfl
  | whisper user message =>
      have user' : Token user := wellFormed.2.1
      have message' : Text message := wellFormed.2.2
      refine (dispatch_of_word noNul (by decide) (by decide)).trans ?_
      rw [dispatchCommand,
        strtok_token user'.1 (user'.clean (by decide)) (show [' '].contains ' ' = true by decide)]
      dsimp only
      rw [strtok_token message'.1 message'.clean (show ['\n'].contains '\n' = true by decide)]
      rfl
  | sendfile filename user payload =>
      have filename' : Token filename := wellFormed.2.1
      have user' : Token user := wellFormed.2.2.1
      have digits := token_toDigits payload.length
      refine (dispatch_of_word noNul (by decide) (by decide)).trans ?_
      rw [dispatchCommand, strtok_token filename'.1 (filename'.clean fun _ => id) space]
      dsimp only
      rw [strtok_token user'.1 (user'.clean fun _ => id) space,
        strtok_token digits.1 (digits.clean fun _ => id) (by decide)]
      rfl

/-! ## Framed command streams -/

/-- The handler's state after the line of a well-formed command. -/
theorem receive_line {s : Session} (commanding : s.mode = .command) {c : ClientCommand}
    (wellFormed : c.WellFormed) :
    s.receive c.line = ⟨modeAfter c.expected, s.dispatched ++ [c.expected], s.uploads⟩ := by
  rw [receive_of_command commanding, dispatch_line c wellFormed]

/-- A well-formed line fits the `recv` of a command. -/
theorem line_fits {s : Session} (commanding : s.mode = .command) {c : ClientCommand}
    (wellFormed : c.WellFormed) : 0 < c.line.length ∧ c.line.length ≤ s.limit := by
  have short := wellFormed.1
  have nonempty : 0 < c.line.length := by
    cases c <;> simp [ClientCommand.line]
  simp only [Session.limit, commanding]
  exact ⟨nonempty, by unfold bufSize at short ⊢; omega⟩

/-- The announced size of a well-formed `/sendfile` starts the payload loop. -/
theorem modeAfter_sendfile {filename user payload : List Char}
    (wellFormed : (ClientCommand.sendfile filename user payload).WellFormed) :
    modeAfter (ClientCommand.sendfile filename user payload).expected =
      .payload payload.length [] := by
  obtain ⟨-, -, -, positive, within⟩ := wellFormed
  have read := strtoul_toDigits payload.length
    (by unfold ulongMax; unfold maxFileSize at within; omega)
  simp only [ClientCommand.expected, modeAfter, read]
  exact if_neg (by omega)

/--
A command as the handler receives it: its line alone in one chunk, then the
file's bytes, for `/sendfile`, cut into non-empty chunks.
-/
structure Delivery where
  command : ClientCommand
  wellFormed : command.WellFormed
  pieces : List (List Char)
  cut : pieces.flatten = command.upload.getD []
  nonempty : ∀ piece ∈ pieces, piece ≠ []

/-- The chunks `recv` returns for a delivery. -/
def Delivery.chunks (d : Delivery) : List (List Char) :=
  d.command.line :: d.pieces

/-- The chunks of a delivery are a partition of the bytes the client sent for it. -/
theorem Delivery.flatten_chunks (d : Delivery) :
    d.chunks.flatten = d.command.line ++ d.command.upload.getD [] := by
  rw [Delivery.chunks, List.flatten_cons, d.cut]

theorem pieces_eq_nil {pieces : List (List Char)} (nonempty : ∀ piece ∈ pieces, piece ≠ [])
    (empty : pieces.flatten = []) : pieces = [] := by
  cases pieces with
  | nil => rfl
  | cons piece _ =>
      exact (nonempty piece (List.mem_cons_self _ _)
        (List.flatten_eq_nil_iff.mp empty piece (List.mem_cons_self _ _))).elim

/-- One delivery: the handler dispatches its command and, for `/sendfile`, builds its upload. -/
theorem feed_delivery (d : Delivery) (s : Session) (commanding : s.mode = .command) :
    s.Fits d.chunks ∧
      s.feed d.chunks = ⟨if d.command = .exit then .stopped else .command,
        s.dispatched ++ [d.command.expected], s.uploads ++ d.command.upload.toList⟩ := by
  obtain ⟨command, wellFormed, pieces, cut, nonempty⟩ := d
  have first := receive_line commanding wellFormed
  have fits := line_fits commanding wellFormed
  simp only [Delivery.chunks, Session.Fits, Session.feed, List.foldl_cons, first] at fits ⊢
  cases command
  case sendfile filename user payload =>
    rw [modeAfter_sendfile wellFormed]
    obtain ⟨rest, fed⟩ := feed_payload pieces nonempty
      ⟨_, s.dispatched ++ [(ClientCommand.sendfile filename user payload).expected], s.uploads⟩
      [] rfl
      wellFormed.2.2.2.1 (by simpa using congrArg List.length cut)
    refine ⟨⟨fits, rest⟩, fed.trans ?_⟩
    simp [cut, ClientCommand.upload]
  all_goals
    have none := pieces_eq_nil nonempty cut
    subst none
    exact ⟨⟨fits, trivial⟩,
      by simp [ClientCommand.upload, ClientCommand.expected, modeAfter]⟩


end ChatServer.CommandParsing
