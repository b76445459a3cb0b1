import ChatServer.CommandParsing

/-!
# `strtok` shared by the handler threads

Every `client_handler` thread splits the command it received with `strtok`:
`strtok(buf, " \r\n")` for the command word, then the `strtok(NULL, ...)`
calls of the branch for its arguments.  glibc keeps where `strtok` resumes
in one static pointer for the whole process, so a call with `NULL` resumes
where the last call of any thread stopped: in that thread's `buf`, where it
also writes its NUL.

This module models the handler threads together: each handler's `buf`, the
save pointer, and each handler's loop as `ChatServer.CommandParsing.Session`
runs it, with each `recv` and each `strtok` call one step, in any
interleaving.  When no two handlers tokenize a command at once, a handler's
loop is exactly `Session.feed` of the chunks it received, and the chunks it
can receive are exactly those that fit its `recv` calls
(`reads_alone_iff`); the results about `Session` hold of the threads under
that condition.  When two handlers tokenize at once, one reads the other's
arguments (`ChatServer.Handler`).

Each `strtok` call is one step: calls interleaved inside one another are
left out.  A token is read when `strtok` returns it.
-/

namespace ChatServer.SharedStrtok

open ChatServer.Basic ChatServer.CommandParsing

/-! ## glibc's `strtok` on a buffer -/

/-- The C string at offset `s` of `buf`: its bytes up to the first NUL. -/
def cStringAt (buf : List Char) (s : Nat) : List Char :=
  (buf.drop s).takeWhile (· ≠ Char.ofNat 0)

/--
`__strtok_r` scanning from offset `s` of `buf`: skip the delimiters
(`strspn`); at the end of the string return `NULL`, the save pointer left
there; otherwise the token runs to the next delimiter (`strcspn`), which is
overwritten by NUL while the save pointer moves past it, or to the end of
the string, where the save pointer stays.  The token, the save pointer's new
offset and the buffer.
-/
def strtokR (delims buf : List Char) (s : Nat) : Option (List Char) × Nat × List Char :=
  let str := cStringAt buf s
  let start := (str.takeWhile delims.contains).length
  if start = str.length then (none, s + start, buf)
  else
    let token := (str.drop start).takeWhile fun c => !delims.contains c
    let stop := start + token.length
    if stop = str.length then (some token, s + stop, buf)
    else (some token, s + stop + 1, buf.set (s + stop) (Char.ofNat 0))

section CString

variable {α : Type} (p : α → Bool)

/-- Dropping part of the leading run that satisfies `p` drops it from the run. -/
theorem takeWhile_drop_of_le : ∀ (l : List α) {k : Nat}, k ≤ (l.takeWhile p).length →
    (l.drop k).takeWhile p = (l.takeWhile p).drop k
  | [], _, _ => by simp
  | _ :: _, 0, _ => rfl
  | x :: xs, k + 1, within => by
      by_cases first : p x = true
      · rw [List.takeWhile_cons_of_pos first, List.length_cons] at within
        rw [List.takeWhile_cons_of_pos first, List.drop_succ_cons, List.drop_succ_cons]
        exact takeWhile_drop_of_le xs (by omega)
      · rw [List.takeWhile_cons_of_neg first] at within
        exact absurd within (by simp)

theorem drop_length_takeWhile (l : List α) : l.drop (l.takeWhile p).length = l.dropWhile p := by
  have split := List.drop_left (l.takeWhile p) (l.dropWhile p)
  rwa [List.takeWhile_append_dropWhile] at split

end CString

theorem cStringAt_add (buf : List Char) (s : Nat) {k : Nat}
    (within : k ≤ (cStringAt buf s).length) :
    cStringAt buf (s + k) = (cStringAt buf s).drop k := by
  rw [cStringAt, ← List.drop_drop]
  exact takeWhile_drop_of_le _ _ within

theorem cStringAt_set {buf : List Char} {i s : Nat} (c : Char) (before : i < s) :
    cStringAt (buf.set i c) s = cStringAt buf s := by
  rw [cStringAt, cStringAt, List.drop_set_of_lt _ _ before]

/-- A chunk `recv` stored with its NUL: the C string is the chunk up to its first NUL. -/
theorem cStringAt_received (chunk old : List Char) :
    cStringAt (chunk ++ Char.ofNat 0 :: old) 0 = chunk.takeWhile (· ≠ Char.ofNat 0) := by
  rw [cStringAt, List.drop_zero, List.takeWhile_append]
  split_ifs with whole
  · rw [List.takeWhile_cons_of_neg (by simp), List.append_nil,
      (List.takeWhile_prefix _).eq_of_length whole]
  · rfl

/--
`strtokR` returns the token `strtok` returns on the C string it scans, and
leaves the save pointer at the C string `strtok` resumes with.
-/
theorem strtokR_spec (delims buf : List Char) (s : Nat) :
    (strtokR delims buf s).1 = (strtok delims (cStringAt buf s)).1 ∧
      cStringAt (strtokR delims buf s).2.2 (strtokR delims buf s).2.1 =
        (strtok delims (cStringAt buf s)).2 := by
  unfold strtokR
  dsimp only
  generalize hstr : cStringAt buf s = str
  have skipped := (drop_length_takeWhile delims.contains str).symm
  have tail (k : Nat) (within : k ≤ str.length) : cStringAt buf (s + k) = str.drop k :=
    hstr ▸ cStringAt_add buf s (hstr ▸ within)
  have startLe := (List.takeWhile_prefix delims.contains (l := str)).length_le
  generalize (str.takeWhile delims.contains).length = start at skipped startLe ⊢
  by_cases empty : start = str.length
  · have none : str.dropWhile delims.contains = [] := by rw [skipped, empty, List.drop_length]
    rw [if_pos empty, strtok, none]
    exact ⟨rfl, by rw [tail start empty.le, empty, List.drop_length]⟩
  have nonempty : str.drop start ≠ [] := by
    rw [Ne, List.drop_eq_nil_iff]
    omega
  have tokenLe :=
    (List.takeWhile_prefix (fun c => !delims.contains c) (l := str.drop start)).length_le
  rw [List.length_drop] at tokenLe
  rw [if_neg empty, strtok_of_start skipped nonempty, ← drop_length_takeWhile, List.drop_drop,
    List.drop_drop]
  split_ifs with stopped
  · refine ⟨rfl, ?_⟩
    dsimp only
    rw [tail _ stopped.le, stopped, List.drop_length, List.drop_eq_nil_of_le (by omega)]
  · refine ⟨rfl, ?_⟩
    rw [cStringAt_set _ (Nat.lt_add_one _), Nat.add_assoc s, Nat.add_assoc start,
      tail _ (by omega)]

/-! ## The handler threads -/

/-- Where a handler thread is in reading and splitting one command. -/
inductive Pc where
  /-- At `recv`: for a command or for payload bytes, as its session's mode says. -/
  | reading
  /-- A command is in `buf`: `strtok(buf, " \r\n")` is next. -/
  | tokenizing
  /--
  In the branch for `cmd`, with `got` the tokens its calls returned so far:
  `strtok(NULL, next)` is next, then the calls with the delimiters `later`.
  -/
  | arguments (cmd : List Char) (got : List (Option (List Char))) (next : List Char)
      (later : List (List Char))
  deriving DecidableEq, Repr

/-- The handler threads: their buffers, `strtok`'s save pointer and their loops. -/
structure Handlers where
  /-- `buf` of each handler, as `recv` and `strtok` wrote it. -/
  buffers : Nat → List Char
  /-- `strtok`'s static save pointer: the handler whose `buf` it points into, and the offset. -/
  save : Option (Nat × Nat)
  /-- Each handler's loop: its mode, the commands dispatched and the uploads built. -/
  sessions : Nat → Session
  pcs : Nat → Pc

/-- One step of one handler thread. -/
inductive Event where
  /-- `recv` returns `chunk` to handler `h`. -/
  | recv (h : Nat) (chunk : List Char)
  /-- Handler `h` makes its next `strtok` call. -/
  | strtok (h : Nat)
  deriving DecidableEq, Repr

/-- The handler an event belongs to. -/
def Event.handler : Event → Nat
  | .recv h _ => h
  | .strtok h => h

/-- The chunk an event hands to handler `h`. -/
def Event.chunkFor (h : Nat) : Event → Option (List Char)
  | .recv g chunk => if g = h then some chunk else none
  | .strtok _ => none

/-- The chunks `recv` returned to handler `h` along `events`. -/
def receivedBy (h : Nat) (events : List Event) : List (List Char) :=
  events.filterMap (Event.chunkFor h)

/-! ## The branches of `client_handler` -/

/-- The delimiters of the `strtok(NULL, ...)` calls of the branch for `cmd`. -/
def argumentDelims (cmd : List Char) : List (List Char) :=
  if cmd = "/whisper".toList then [[' '], ['\n']]
  else if cmd = "/join".toList then [[' ', '\n'], [' ', '\n']]
  else if cmd = "/broadcast".toList then [['\n']]
  else if cmd = "/sendfile".toList then [spaceOrEol, spaceOrEol, spaceOrEol]
  else []

/-- The command the branch for `cmd` carries out with the tokens `args` of its calls. -/
def build (cmd : List Char) (args : List (Option (List Char))) : Dispatch :=
  if cmd = "/exit".toList then .exit
  else if cmd = "/whisper".toList then .whisper (args.getD 0 none) (args.getD 1 none)
  else if cmd = "/join".toList then .join (args.getD 0 none) (args.getD 1 none)
  else if cmd = "/leave".toList then .leave
  else if cmd = "/broadcast".toList then .broadcast (args.getD 0 none)
  else if cmd = "/sendfile".toList then
    .sendfile (args.getD 0 none) (args.getD 1 none) (args.getD 2 none)
  else .unknown

/-- The tokens of successive `strtok(NULL, delims)` calls on `rest`, one per entry of `calls`. -/
def tokens : List (List Char) → List Char → List (Option (List Char))
  | [], _ => []
  | delims :: calls, rest => (strtok delims rest).1 :: tokens calls (strtok delims rest).2

/-- A handler whose calls follow one another splits its command as `dispatchCommand` does. -/
theorem build_tokens (cmd rest : List Char) :
    build cmd (tokens (argumentDelims cmd) rest) = dispatchCommand cmd rest := by
  unfold build argumentDelims dispatchCommand
  split_ifs <;> simp_all [tokens]

theorem length_argumentDelims (cmd : List Char) : (argumentDelims cmd).length ≤ 3 := by
  unfold argumentDelims
  split_ifs <;> simp

/-- The session after dispatching `d`: its mode as `modeAfter d` says, `d` recorded. -/
def recordDispatch (s : Session) (d : Dispatch) : Session :=
  ⟨modeAfter d, s.dispatched ++ [d], s.uploads⟩

theorem receive_eq_recordDispatch {s : Session} (commanding : s.mode = .command)
    (chunk : List Char) : s.receive chunk = recordDispatch s (dispatch chunk) :=
  receive_of_command commanding

theorem feed_snoc (s : Session) (chunks : List (List Char)) (chunk : List Char) :
    s.feed (chunks ++ [chunk]) = (s.feed chunks).receive chunk := by
  rw [feed_append]
  rfl

theorem fits_snoc (s : Session) (chunks : List (List Char)) (chunk : List Char) :
    s.Fits (chunks ++ [chunk]) ↔
      s.Fits chunks ∧ 0 < chunk.length ∧ chunk.length ≤ (s.feed chunks).limit := by
  rw [fits_append]
  simp [Session.Fits]

/-! ## One step -/

namespace Handlers

/-- `recv` has stored `chunk` and its NUL at the start of handler `h`'s `buf`. -/
def load (t : Handlers) (h : Nat) (chunk : List Char) : Handlers :=
  { t with
    buffers := Function.update t.buffers h
      (chunk ++ Char.ofNat 0 :: (t.buffers h).drop (chunk.length + 1))
    pcs := Function.update t.pcs h .tokenizing }

/-- Handler `h`'s session becomes `s`. -/
def setSession (t : Handlers) (h : Nat) (s : Session) : Handlers :=
  { t with sessions := Function.update t.sessions h s }

/-- A `strtok` call has left `owner`'s buffer as `buf` and the save pointer at `offset` in it. -/
def scanned (t : Handlers) (owner offset : Nat) (buf : List Char) : Handlers :=
  { t with buffers := Function.update t.buffers owner buf, save := some (owner, offset) }

/-- Handler `h` has dispatched `d` and waits at `recv` again. -/
def finish (t : Handlers) (h : Nat) (d : Dispatch) : Handlers :=
  { t with
    sessions := Function.update t.sessions h (recordDispatch (t.sessions h) d)
    pcs := Function.update t.pcs h .reading }

/-- After a call of the branch for `cmd`, `got` so far: the next call, or the dispatch. -/
def proceed (t : Handlers) (h : Nat) (cmd : List Char) (got : List (Option (List Char))) :
    List (List Char) → Handlers
  | [] => t.finish h (build cmd got)
  | next :: later => { t with pcs := Function.update t.pcs h (.arguments cmd got next later) }

/-- Handler `h`'s `strtok(buf, " \r\n")`, then its branch for the token. -/
def commandCall (t : Handlers) (h : Nat) : Handlers :=
  let call := strtokR spaceOrEol (t.buffers h) 0
  let t := t.scanned h call.2.1 call.2.2
  match call.1 with
  | none => t.finish h .unknown
  | some cmd => t.proceed h cmd [] (argumentDelims cmd)

/-- Handler `h`'s `strtok(NULL, next)`, resuming at `offset` in `owner`'s buffer. -/
def argumentCall (t : Handlers) (h : Nat) (cmd : List Char) (got : List (Option (List Char)))
    (next : List Char) (later : List (List Char)) (owner offset : Nat) : Handlers :=
  let call := strtokR next (t.buffers owner) offset
  (t.scanned owner call.2.1 call.2.2).proceed h cmd (got ++ [call.1]) later

/--
One step of the handler threads, `none` when it cannot happen.  A `recv` for
a command stores the chunk in `buf`; one for payload bytes goes to the
upload as `Session.receive` says.  A `strtok(NULL, ...)` resumes wherever
the save pointer is, in whichever handler's `buf`; with no save pointer yet
it would crash, which no run reaches, as every handler's first call passes
its own `buf`.
-/
def apply (t : Handlers) : Event → Option Handlers
  | .recv h chunk =>
      if t.pcs h = .reading ∧ 0 < chunk.length ∧ chunk.length ≤ (t.sessions h).limit then
        if (t.sessions h).mode = .command then some (t.load h chunk)
        else some (t.setSession h ((t.sessions h).receive chunk))
      else none
  | .strtok h =>
      match t.pcs h, t.save with
      | .tokenizing, _ => some (t.commandCall h)
      | .arguments cmd got next later, some (owner, offset) =>
          some (t.argumentCall h cmd got next later owner offset)
      | _, _ => none

/-- Every step the threads can take. -/
def AnyStep (_ : Handlers) (_ : Event) : Prop :=
  True

/--
A step that starts no second tokenization: a handler receives a command
only while no other handler is between the `recv` of a command and its
dispatch.
-/
def Serial (t : Handlers) : Event → Prop
  | .recv h _ => (t.sessions h).mode = .command → ∀ g, g ≠ h → t.pcs g = .reading
  | .strtok _ => True

/-- No handler but `h` is between the `recv` of a command and its dispatch. -/
def Alone (t : Handlers) (h : Nat) : Prop :=
  ∀ g, g ≠ h → t.pcs g = .reading

end Handlers

/-- The runs of the handler threads whose every step meets `guard` when it is taken. -/
inductive Run (guard : Handlers → Event → Prop) : Handlers → List Event → Handlers → Prop
  | nil {t : Handlers} : Run guard t [] t
  | snoc {t t' t'' : Handlers} {events : List Event} {e : Event} :
      Run guard t events t' → guard t' e → t'.apply e = some t'' →
        Run guard t (events ++ [e]) t''

/-! ## What one step does -/

section Fields

variable (t : Handlers) (h : Nat)

@[simp]
theorem load_pcs (chunk : List Char) :
    (t.load h chunk).pcs = Function.update t.pcs h .tokenizing :=
  rfl

@[simp]
theorem load_sessions (chunk : List Char) : (t.load h chunk).sessions = t.sessions :=
  rfl

@[simp]
theorem setSession_pcs (s : Session) : (t.setSession h s).pcs = t.pcs :=
  rfl

@[simp]
theorem setSession_sessions (s : Session) :
    (t.setSession h s).sessions = Function.update t.sessions h s :=
  rfl

@[simp]
theorem scanned_pcs (owner offset : Nat) (buf : List Char) :
    (t.scanned owner offset buf).pcs = t.pcs :=
  rfl

@[simp]
theorem scanned_sessions (owner offset : Nat) (buf : List Char) :
    (t.scanned owner offset buf).sessions = t.sessions :=
  rfl

@[simp]
theorem scanned_save (owner offset : Nat) (buf : List Char) :
    (t.scanned owner offset buf).save = some (owner, offset) :=
  rfl

@[simp]
theorem scanned_buffers (owner offset : Nat) (buf : List Char) :
    (t.scanned owner offset buf).buffers = Function.update t.buffers owner buf :=
  rfl

@[simp]
theorem finish_pcs (d : Dispatch) : (t.finish h d).pcs = Function.update t.pcs h .reading :=
  rfl

@[simp]
theorem finish_sessions (d : Dispatch) :
    (t.finish h d).sessions = Function.update t.sessions h (recordDispatch (t.sessions h) d) :=
  rfl

/-- Another handler's call leaves handler `h`'s place and session. -/
theorem proceed_of_ne {g : Nat} (other : g ≠ h) (cmd : List Char)
    (got : List (Option (List Char))) (pending : List (List Char)) :
    (t.proceed g cmd got pending).pcs h = t.pcs h ∧
      (t.proceed g cmd got pending).sessions h = t.sessions h := by
  cases pending <;> simp [Handlers.proceed, Function.update_noteq other.symm]

end Fields

section Apply

variable {t t' : Handlers} {h : Nat}

theorem apply_recv {chunk : List Char} (stepped : t.apply (.recv h chunk) = some t') :
    t.pcs h = .reading ∧ (0 < chunk.length ∧ chunk.length ≤ (t.sessions h).limit) ∧
      ((t.sessions h).mode = .command ∧ t' = t.load h chunk ∨
        (t.sessions h).mode ≠ .command ∧
          t' = t.setSession h ((t.sessions h).receive chunk)) := by
  simp only [Handlers.apply] at stepped
  split_ifs at stepped with ready commanding <;> cases stepped
  · exact ⟨ready.1, ready.2, .inl ⟨commanding, rfl⟩⟩
  · exact ⟨ready.1, ready.2, .inr ⟨commanding, rfl⟩⟩

theorem apply_strtok (stepped : t.apply (.strtok h) = some t') :
    (t.pcs h = .tokenizing ∧ t' = t.commandCall h) ∨
      ∃ cmd got next later owner offset, t.pcs h = .arguments cmd got next later ∧
        t.save = some (owner, offset) ∧
          t' = t.argumentCall h cmd got next later owner offset := by
  simp only [Handlers.apply] at stepped
  split at stepped
  next tokenizing =>
    cases stepped
    exact .inl ⟨tokenizing, rfl⟩
  next arguments saved =>
    cases stepped
    exact .inr ⟨_, _, _, _, _, _, arguments, saved, rfl⟩
  next => cases stepped

theorem apply_tokenizing (tokenizing : t.pcs h = .tokenizing) :
    t.apply (.strtok h) = some (t.commandCall h) := by
  simp [Handlers.apply, tokenizing]

theorem apply_arguments {cmd next : List Char} {got : List (Option (List Char))}
    {later : List (List Char)} {owner offset : Nat} (pc : t.pcs h = .arguments cmd got next later)
    (saved : t.save = some (owner, offset)) :
    t.apply (.strtok h) = some (t.argumentCall h cmd got next later owner offset) := by
  simp [Handlers.apply, pc, saved]

/--
Handler `h`'s first call: no token and an unknown command, or the branch for
its token, with the buffer and save pointer as the call left them.
-/
theorem commandCall_cases (t : Handlers) (h : Nat) :
    ((strtokR spaceOrEol (t.buffers h) 0).1 = none ∧
        t.commandCall h = (t.scanned h (strtokR spaceOrEol (t.buffers h) 0).2.1
          (strtokR spaceOrEol (t.buffers h) 0).2.2).finish h .unknown) ∨
      ∃ cmd, (strtokR spaceOrEol (t.buffers h) 0).1 = some cmd ∧
        t.commandCall h = (t.scanned h (strtokR spaceOrEol (t.buffers h) 0).2.1
          (strtokR spaceOrEol (t.buffers h) 0).2.2).proceed h cmd [] (argumentDelims cmd) := by
  dsimp only [Handlers.commandCall]
  split
  next none => exact .inl ⟨none, rfl⟩
  next cmd some => exact .inr ⟨cmd, some, rfl⟩

theorem apply_load {chunk : List Char} (reading : t.pcs h = .reading)
    (commanding : (t.sessions h).mode = .command) (positive : 0 < chunk.length)
    (short : chunk.length < bufSize) : t.apply (.recv h chunk) = some (t.load h chunk) := by
  have within : chunk.length ≤ (t.sessions h).limit := by
    simp only [Session.limit, commanding]
    omega
  simp [Handlers.apply, reading, positive, within, commanding]

/-- `recv` stored a chunk without NUL: the C string at the start of `buf` is the chunk. -/
theorem load_cStringAt {chunk : List Char} (noNul : NoNul chunk) :
    cStringAt ((t.load h chunk).buffers h) 0 = chunk := by
  show cStringAt (Function.update t.buffers h _ h) 0 = chunk
  rw [Function.update_same, cStringAt_received,
    List.takeWhile_eq_self_iff.mpr fun c member => decide_eq_true (noNul c member)]

/-- Handler `h`'s first call on a command whose first word is `cmd` goes to the branch for `cmd`. -/
theorem apply_commandCall {cmd rest : List Char} (tokenizing : t.pcs h = .tokenizing)
    (cut : strtok spaceOrEol (cStringAt (t.buffers h) 0) = (some cmd, rest)) :
    ∃ offset buf, cStringAt buf offset = rest ∧
      t.apply (.strtok h) =
        some ((t.scanned h offset buf).proceed h cmd [] (argumentDelims cmd)) := by
  obtain ⟨token, remainder⟩ := strtokR_spec spaceOrEol (t.buffers h) 0
  rw [cut] at token remainder
  rcases commandCall_cases t h with ⟨noToken, -⟩ | ⟨cmd', hasToken, called⟩
  · rw [noToken] at token
    cases token
  · rw [hasToken] at token
    cases token
    exact ⟨_, _, remainder, by rw [apply_tokenizing tokenizing, called]⟩

/--
A `strtok(NULL, next)` call returns what `strtok` gives on the C string at
the save pointer, in whichever handler's buffer that is.
-/
theorem apply_argumentCall {cmd next : List Char} {got : List (Option (List Char))}
    {later : List (List Char)} {owner offset : Nat} (pc : t.pcs h = .arguments cmd got next later)
    (saved : t.save = some (owner, offset)) :
    ∃ offset' buf,
      cStringAt buf offset' = (strtok next (cStringAt (t.buffers owner) offset)).2 ∧
      t.apply (.strtok h) = some ((t.scanned owner offset' buf).proceed h cmd
        (got ++ [(strtok next (cStringAt (t.buffers owner) offset)).1]) later) := by
  obtain ⟨token, remainder⟩ := strtokR_spec next (t.buffers owner) offset
  exact ⟨_, _, remainder, by rw [apply_arguments pc saved, Handlers.argumentCall, token]⟩

/-- A step of another handler leaves handler `h`'s place and session. -/
theorem apply_of_ne {e : Event} (stepped : t.apply e = some t') (other : e.handler ≠ h) :
    t'.pcs h = t.pcs h ∧ t'.sessions h = t.sessions h := by
  cases e with
  | recv g chunk =>
      replace other : g ≠ h := other
      obtain ⟨-, -, ⟨-, rfl⟩ | ⟨-, rfl⟩⟩ := apply_recv stepped <;>
        simp [Function.update_noteq other.symm]
  | strtok g =>
      replace other : g ≠ h := other
      rcases apply_strtok stepped with
        ⟨-, rfl⟩ | ⟨cmd, got, next, later, owner, offset, -, -, rfl⟩
      · rcases commandCall_cases t g with ⟨-, called⟩ | ⟨cmd, -, called⟩ <;> rw [called]
        · simp [Function.update_noteq other.symm]
        · exact proceed_of_ne _ _ other _ _ _
      · exact proceed_of_ne _ _ other _ _ _

end Apply

theorem chunkFor_of_ne {e : Event} {h : Nat} (other : e.handler ≠ h) : e.chunkFor h = none := by
  cases e with
  | recv g chunk => exact if_neg other
  | strtok g => rfl

theorem receivedBy_append (h : Nat) (events more : List Event) :
    receivedBy h (events ++ more) = receivedBy h events ++ receivedBy h more :=
  List.filterMap_append _ _ _

theorem receivedBy_single (h : Nat) (e : Event) : receivedBy h [e] = (e.chunkFor h).toList := by
  cases found : e.chunkFor h <;> simp [receivedBy, found]

/-- While handler `h` tokenizes alone, another handler's step is a `recv` of payload bytes. -/
theorem apply_of_alone {t t' : Handlers} {h : Nat} {e : Event} (alone : t.Alone h)
    (busy : t.pcs h ≠ .reading) (serial : t.Serial e) (stepped : t.apply e = some t')
    (other : e.handler ≠ h) : ∃ g session, g ≠ h ∧ t' = t.setSession g session := by
  cases e with
  | recv g chunk =>
      replace other : g ≠ h := other
      obtain ⟨-, -, ⟨commanding, -⟩ | ⟨-, rfl⟩⟩ := apply_recv stepped
      · exact absurd (serial commanding h other.symm) busy
      · exact ⟨g, _, other, rfl⟩
  | strtok g =>
      have reading := alone g other
      rcases apply_strtok stepped with ⟨tokenizing, -⟩ | ⟨_, _, _, _, _, _, arguments, -⟩
      · rw [reading] at tokenizing
        cases tokenizing
      · rw [reading] at arguments
        cases arguments

theorem Run.append {guard : Handlers → Event → Prop} {t t' t'' : Handlers}
    {first rest : List Event} (run : Run guard t first t') (more : Run guard t' rest t'') :
    Run guard t (first ++ rest) t'' := by
  induction more with
  | nil => rwa [List.append_nil]
  | snoc _ allowed stepped reached =>
      rw [← List.append_assoc]
      exact reached.snoc allowed stepped

/-! ## A handler that tokenizes alone -/

/--
Where handler `h` stands after `recv` returned `chunks` to it, in a run from
a state where it waited at `recv` with the session `s`.  The chunks fit its
`recv` calls.  At `recv` its session is `s.feed chunks`.  While it tokenizes
the last chunk, no other handler tokenizes, its session is `s.feed` of the
chunks before, reading commands, and the calls it still has to make dispatch
what `dispatch` gives for the last chunk.
-/
inductive Tracks (s : Session) (h : Nat) (t : Handlers) : List (List Char) → Prop
  | reading {chunks : List (List Char)} : s.Fits chunks → t.pcs h = .reading →
      t.sessions h = s.feed chunks → Tracks s h t chunks
  | tokenizing {earlier : List (List Char)} {chunk : List Char} :
      s.Fits (earlier ++ [chunk]) → t.pcs h = .tokenizing → t.Alone h →
      t.sessions h = s.feed earlier → (t.sessions h).mode = .command →
      cStringAt (t.buffers h) 0 = chunk.takeWhile (· ≠ Char.ofNat 0) →
      Tracks s h t (earlier ++ [chunk])
  | arguments {earlier : List (List Char)} {chunk cmd next : List Char}
      {got : List (Option (List Char))} {later : List (List Char)} {offset : Nat} :
      s.Fits (earlier ++ [chunk]) → t.pcs h = .arguments cmd got next later → t.Alone h →
      t.sessions h = s.feed earlier → (t.sessions h).mode = .command →
      t.save = some (h, offset) →
      build cmd (got ++ tokens (next :: later) (cStringAt (t.buffers h) offset)) =
        dispatch chunk →
      Tracks s h t (earlier ++ [chunk])

section Tracks

variable {s : Session} {h : Nat} {earlier : List (List Char)} {chunk : List Char}

/-- A handler at `recv` is tracked from its session there, with no chunk read yet. -/
theorem Tracks.start {t : Handlers} (reading : t.pcs h = .reading) :
    Tracks (t.sessions h) h t [] :=
  .reading trivial reading rfl

/-- Handler `h` dispatches what `dispatch` gives for its last chunk and is back at `recv`. -/
theorem tracks_finish {t : Handlers} (fits : s.Fits (earlier ++ [chunk]))
    (session : t.sessions h = s.feed earlier) (commanding : (t.sessions h).mode = .command) :
    Tracks s h (t.finish h (dispatch chunk)) (earlier ++ [chunk]) := by
  refine .reading fits (by simp) ?_
  rw [finish_sessions, Function.update_same, ← receive_eq_recordDispatch commanding, session,
    feed_snoc]

/-- A call that leaves the dispatch what `dispatch` gives keeps handler `h` tracked. -/
theorem tracks_proceed {t : Handlers} (fits : s.Fits (earlier ++ [chunk])) (alone : t.Alone h)
    (session : t.sessions h = s.feed earlier) (commanding : (t.sessions h).mode = .command)
    {offset : Nat} (saved : t.save = some (h, offset)) {cmd : List Char}
    {got : List (Option (List Char))} (pending : List (List Char))
    (outcome : build cmd (got ++ tokens pending (cStringAt (t.buffers h) offset)) =
      dispatch chunk) :
    Tracks s h (t.proceed h cmd got pending) (earlier ++ [chunk]) := by
  cases pending with
  | nil =>
      rw [tokens, List.append_nil] at outcome
      rw [Handlers.proceed, outcome]
      exact tracks_finish fits session commanding
  | cons next later =>
      exact .arguments fits (Function.update_same _ _ _)
        (fun g other => (Function.update_noteq other _ _).trans (alone g other))
        session commanding saved outcome

theorem Tracks.commandCall {t : Handlers} (fits : s.Fits (earlier ++ [chunk]))
    (alone : t.Alone h) (session : t.sessions h = s.feed earlier)
    (commanding : (t.sessions h).mode = .command)
    (received : cStringAt (t.buffers h) 0 = chunk.takeWhile (· ≠ Char.ofNat 0)) :
    Tracks s h (t.commandCall h) (earlier ++ [chunk]) := by
  obtain ⟨token, rest⟩ := strtokR_spec spaceOrEol (t.buffers h) 0
  have outcome : dispatch chunk =
      match strtok spaceOrEol (chunk.takeWhile (· ≠ Char.ofNat 0)) with
      | (none, _) => .unknown
      | (some cmd, rest) => dispatchCommand cmd rest := rfl
  rw [received] at token rest
  generalize strtok spaceOrEol (chunk.takeWhile (· ≠ Char.ofNat 0)) = call at token rest outcome
  obtain ⟨first, remainder⟩ := call
  dsimp only at token rest
  rcases commandCall_cases t h with ⟨noToken, called⟩ | ⟨cmd, hasToken, called⟩ <;>
    rw [called]
  · rw [noToken] at token
    subst token
    have unknown : dispatch chunk = .unknown := outcome
    rw [← unknown]
    exact tracks_finish fits session commanding
  · rw [hasToken] at token
    subst token
    have branch : dispatch chunk = dispatchCommand cmd remainder := outcome
    refine tracks_proceed (t := t.scanned h _ _) fits alone session commanding rfl _ ?_
    rw [List.nil_append, scanned_buffers, Function.update_same, rest, build_tokens, branch]

theorem Tracks.argumentCall {t : Handlers} (fits : s.Fits (earlier ++ [chunk]))
    (alone : t.Alone h) (session : t.sessions h = s.feed earlier)
    (commanding : (t.sessions h).mode = .command) {cmd next : List Char}
    {got : List (Option (List Char))} {later : List (List Char)} {offset : Nat}
    (outcome : build cmd (got ++ tokens (next :: later) (cStringAt (t.buffers h) offset)) =
      dispatch chunk) :
    Tracks s h (t.argumentCall h cmd got next later h offset) (earlier ++ [chunk]) := by
  obtain ⟨token, rest⟩ := strtokR_spec next (t.buffers h) offset
  refine tracks_proceed (t := t.scanned h _ _) fits alone session commanding rfl later ?_
  rw [scanned_buffers, Function.update_same, rest, List.append_assoc, List.singleton_append, token,
    ← outcome]
  rfl

/-- A `recv` of payload bytes by another handler keeps handler `h` tracked. -/
theorem Tracks.setSession {t : Handlers} {chunks : List (List Char)}
    (tracks : Tracks s h t chunks) {g : Nat} (other : g ≠ h) (session : Session) :
    Tracks s h (t.setSession g session) chunks := by
  have same : (t.setSession g session).sessions h = t.sessions h :=
    Function.update_noteq other.symm _ _
  cases tracks with
  | reading fits reading kept => exact .reading fits reading (same.trans kept)
  | tokenizing fits pc alone kept commanding received =>
      exact .tokenizing fits pc alone (same.trans kept) (same ▸ commanding) received
  | arguments fits pc alone kept commanding saved outcome =>
      exact .arguments fits pc alone (same.trans kept) (same ▸ commanding) saved outcome

/-- Every step of a run in which no two handlers tokenize at once keeps handler `h` tracked. -/
theorem Tracks.step {t t' : Handlers} {chunks : List (List Char)} {e : Event}
    (tracks : Tracks s h t chunks) (serial : t.Serial e) (stepped : t.apply e = some t') :
    Tracks s h t' (chunks ++ (e.chunkFor h).toList) := by
  by_cases mine : e.handler = h
  · cases e with
    | recv g chunk =>
        obtain rfl : h = g := mine.symm
        rw [Event.chunkFor, if_pos rfl, Option.toList_some]
        obtain ⟨reading, ⟨positive, within⟩, received⟩ := apply_recv stepped
        obtain ⟨fits, session⟩ : s.Fits chunks ∧ t.sessions h = s.feed chunks := by
          cases tracks with
          | reading fits _ session => exact ⟨fits, session⟩
          | tokenizing _ pc => exact absurd (pc.symm.trans reading) nofun
          | arguments _ pc => exact absurd (pc.symm.trans reading) nofun
        have fits' : s.Fits (chunks ++ [chunk]) :=
          (fits_snoc _ _ _).mpr ⟨fits, positive, session ▸ within⟩
        rcases received with ⟨commanding, rfl⟩ | ⟨-, rfl⟩
        · refine .tokenizing fits' (Function.update_same _ _ _)
            (fun g other => (Function.update_noteq other _ _).trans (serial commanding g other))
            session commanding ?_
          show cStringAt (Function.update t.buffers h _ h) 0 = _
          rw [Function.update_same, cStringAt_received]
        · exact .reading fits' reading
            (by rw [setSession_sessions, Function.update_same, session, feed_snoc])
    | strtok g =>
        obtain rfl : h = g := mine.symm
        rw [Event.chunkFor, Option.toList_none, List.append_nil]
        rcases apply_strtok stepped with ⟨tokenizing, rfl⟩ |
          ⟨cmd, got, next, later, owner, offset, arguments, saved, rfl⟩
        · cases tracks with
          | tokenizing fits _ alone session commanding received =>
              exact Tracks.commandCall fits alone session commanding received
          | reading _ pc => exact absurd (pc.symm.trans tokenizing) nofun
          | arguments _ pc => exact absurd (pc.symm.trans tokenizing) nofun
        · cases tracks with
          | arguments fits pc alone session commanding saved' outcome =>
              rw [pc] at arguments
              cases arguments
              rw [saved'] at saved
              cases saved
              exact Tracks.argumentCall fits alone session commanding outcome
          | reading _ pc => exact absurd (pc.symm.trans arguments) nofun
          | tokenizing _ pc => exact absurd (pc.symm.trans arguments) nofun
  · rw [chunkFor_of_ne mine, Option.toList_none, List.append_nil]
    cases tracks with
    | reading fits reading session =>
        obtain ⟨pc, same⟩ := apply_of_ne stepped mine
        exact .reading fits (pc.trans reading) (same.trans session)
    | tokenizing fits pc alone session commanding received =>
        obtain ⟨g, session', other, rfl⟩ :=
          apply_of_alone alone (by rw [pc]; nofun) serial stepped mine
        exact (Tracks.tokenizing fits pc alone session commanding received).setSession other _
    | arguments fits pc alone session commanding saved outcome =>
        obtain ⟨g, session', other, rfl⟩ :=
          apply_of_alone alone (by rw [pc]; nofun) serial stepped mine
        exact (Tracks.arguments fits pc alone session commanding saved outcome).setSession other _

theorem Tracks.run {t t' : Handlers} {chunks : List (List Char)} {events : List Event}
    (tracks : Tracks s h t chunks) (run : Run Handlers.Serial t events t') :
    Tracks s h t' (chunks ++ receivedBy h events) := by
  induction run with
  | nil => rwa [receivedBy, List.filterMap_nil, List.append_nil]
  | snoc _ serial stepped reached =>
      rw [receivedBy_append, receivedBy_single, ← List.append_assoc]
      exact reached.step serial stepped

/-- The `strtok` calls a place still has to make, at most. -/
def Pc.calls : Pc → Nat
  | .reading => 0
  | .tokenizing => 4
  | .arguments _ _ _ later => later.length + 1

theorem calls_proceed (t : Handlers) (cmd : List Char) (got : List (Option (List Char)))
    (pending : List (List Char)) :
    Pc.calls ((t.proceed h cmd got pending).pcs h) ≤ pending.length := by
  cases pending <;> simp [Handlers.proceed, Pc.calls]

/-- A handler that tokenizes alone makes its next call, with fewer calls left. -/
theorem Tracks.progress {t : Handlers} {chunks : List (List Char)} (tracks : Tracks s h t chunks)
    (busy : t.pcs h ≠ .reading) :
    ∃ t', t.apply (.strtok h) = some t' ∧ Pc.calls (t'.pcs h) < Pc.calls (t.pcs h) := by
  cases tracks with
  | reading _ reading => exact absurd reading busy
  | tokenizing _ pc =>
      refine ⟨_, apply_tokenizing pc, ?_⟩
      rw [pc, Pc.calls]
      rcases commandCall_cases t h with ⟨-, called⟩ | ⟨cmd, -, called⟩ <;> rw [called]
      · simp [Pc.calls]
      · exact (calls_proceed _ _ _ _).trans_lt
          (Nat.lt_of_le_of_lt (length_argumentDelims cmd) (by decide))
  | arguments _ pc _ _ _ saved =>
      refine ⟨_, apply_arguments pc saved, ?_⟩
      rw [pc, Pc.calls]
      exact Nat.lt_succ_of_le (calls_proceed _ _ _ _)

/-- A handler that tokenizes alone ends its tokenization by its own `strtok` calls. -/
theorem Tracks.finishes : ∀ (n : Nat) {t : Handlers} {chunks : List (List Char)},
    Pc.calls (t.pcs h) < n → Tracks s h t chunks →
    ∃ k t', Run Handlers.Serial t (List.replicate k (.strtok h)) t' ∧ t'.pcs h = .reading ∧
      (∀ g, g ≠ h → t'.pcs g = t.pcs g) ∧ Tracks s h t' chunks
  | 0, _, _, below, _ => absurd below (Nat.not_lt_zero _)
  | n + 1, t, chunks, below, tracks => by
      by_cases done : t.pcs h = .reading
      · exact ⟨0, t, .nil, done, fun _ _ => rfl, tracks⟩
      obtain ⟨t1, stepped, fewer⟩ := tracks.progress done
      have next : Tracks s h t1 chunks := by
        simpa [Event.chunkFor] using tracks.step (show t.Serial (.strtok h) from trivial) stepped
      obtain ⟨k, t', run, finished, others, last⟩ := Tracks.finishes n (by omega) next
      refine ⟨k + 1, t', ?_, finished,
        fun g other => (others g other).trans (apply_of_ne stepped other.symm).1, last⟩
      rw [List.replicate_succ, ← List.singleton_append]
      exact (Run.nil.snoc trivial stepped).append run

end Tracks

/-! ## Each handler's loop is `Session.feed` -/

/--
In a run of the handler threads in which no two tokenize a command at once,
one handler's loop goes from `s` to `s'` on the chunks `chunks`: it waits at
`recv` with the session `s`, `recv` returns it `chunks`, and it waits at
`recv` again with the session `s'`.
-/
def ReadsAlone (s : Session) (chunks : List (List Char)) (s' : Session) : Prop :=
  ∃ t events t' h, Run Handlers.Serial t events t' ∧ t.pcs h = .reading ∧ t.sessions h = s ∧
    receivedBy h events = chunks ∧ t'.pcs h = .reading ∧ t'.sessions h = s'

theorem ReadsAlone.fits_feed {s s' : Session} {chunks : List (List Char)}
    (reads : ReadsAlone s chunks s') : s.Fits chunks ∧ s' = s.feed chunks := by
  obtain ⟨t, events, t', h, run, start, rfl, rfl, back, rfl⟩ := reads
  have tracks := (Tracks.start start).run run
  rw [List.nil_append] at tracks
  generalize receivedBy h events = chunks at tracks
  cases tracks with
  | reading fits _ session => exact ⟨fits, session⟩
  | tokenizing _ pc => exact absurd (pc.symm.trans back) nofun
  | arguments _ pc => exact absurd (pc.symm.trans back) nofun

/-- All handlers at `recv` with the session `s`, their buffers empty, no save pointer yet. -/
def Handlers.waiting (s : Session) : Handlers :=
  ⟨fun _ => [], none, fun _ => s, fun _ => .reading⟩

theorem receivedBy_replicate_strtok (h g k : Nat) :
    receivedBy h (List.replicate k (.strtok g)) = [] := by
  simp [receivedBy, List.filterMap_replicate, Event.chunkFor]

/-- Handler `h` reads one chunk that fits, and every handler is back at `recv`. -/
theorem reads_chunk {h : Nat} {t : Handlers} (reading : ∀ g, t.pcs g = .reading)
    {chunk : List Char} (positive : 0 < chunk.length)
    (within : chunk.length ≤ (t.sessions h).limit) :
    ∃ events t', Run Handlers.Serial t events t' ∧ receivedBy h events = [chunk] ∧
      (∀ g, t'.pcs g = .reading) ∧ t'.sessions h = (t.sessions h).receive chunk := by
  by_cases commanding : (t.sessions h).mode = .command
  · have loaded : t.apply (.recv h chunk) = some (t.load h chunk) := by
      simp [Handlers.apply, reading h, positive, within, commanding]
    have serial : t.Serial (.recv h chunk) := fun _ g _ => reading g
    have tracks := (Tracks.start (reading h)).step serial loaded
    simp only [Event.chunkFor, if_pos, Option.toList_some, List.nil_append] at tracks
    obtain ⟨k, t', run, finished, others, last⟩ :=
      Tracks.finishes 5 (by simp [Pc.calls]) tracks
    refine ⟨.recv h chunk :: List.replicate k (.strtok h), t',
      (Run.nil.snoc serial loaded).append run, ?_, fun g => ?_, ?_⟩
    · rw [← List.singleton_append, receivedBy_append, receivedBy_replicate_strtok]
      simp [receivedBy, Event.chunkFor]
    · rcases eq_or_ne g h with rfl | other
      · exact finished
      · rw [others g other, load_pcs, Function.update_noteq other, reading g]
    · generalize single : [chunk] = chunks at last
      cases last with
      | reading _ _ session => rw [session, ← single]; rfl
      | tokenizing _ pc => exact absurd (pc.symm.trans finished) nofun
      | arguments _ pc => exact absurd (pc.symm.trans finished) nofun
  · have received : t.apply (.recv h chunk) =
        some (t.setSession h ((t.sessions h).receive chunk)) := by
      simp [Handlers.apply, reading h, positive, within, commanding]
    refine ⟨[.recv h chunk], _, Run.nil.snoc (fun c => absurd c commanding) received,
      by simp [receivedBy, Event.chunkFor], reading, by simp⟩

/-- From handlers all at `recv`, handler `h` alone reads any chunks that fit its `recv` calls. -/
theorem reads_of_fits {h : Nat} : ∀ (chunks : List (List Char)) {t : Handlers},
    (∀ g, t.pcs g = .reading) → (t.sessions h).Fits chunks →
    ∃ events t', Run Handlers.Serial t events t' ∧ receivedBy h events = chunks ∧
      (∀ g, t'.pcs g = .reading) ∧ t'.sessions h = (t.sessions h).feed chunks
  | [], t, reading, _ => ⟨[], t, .nil, rfl, reading, rfl⟩
  | chunk :: chunks, t, reading, fits => by
      obtain ⟨⟨positive, within⟩, rest⟩ := fits
      obtain ⟨first, t1, run1, received1, reading1, session1⟩ :=
        reads_chunk reading positive within
      obtain ⟨more, t2, run2, received2, reading2, session2⟩ :=
        reads_of_fits chunks reading1 (session1 ▸ rest)
      refine ⟨first ++ more, t2, run1.append run2, ?_, reading2, ?_⟩
      · rw [receivedBy_append, received1, received2, List.singleton_append]
      · rw [session2, session1]
        rfl

theorem readsAlone_of_fits {s : Session} {chunks : List (List Char)} (fits : s.Fits chunks) :
    ReadsAlone s chunks (s.feed chunks) := by
  obtain ⟨events, t', run, received, reading, session⟩ :=
    reads_of_fits (h := 0) chunks (t := Handlers.waiting s) (fun _ => rfl) fits
  exact ⟨Handlers.waiting s, events, t', 0, run, rfl, rfl, received, reading 0, session⟩

/--
When no two handlers tokenize a command at once, whatever the other
handlers do meanwhile, a handler's loop is `Session.feed`: it can read
exactly the sequences of chunks that fit its `recv` calls, and it reaches
the session `Session.feed` gives for them.
-/
theorem reads_alone_iff {s s' : Session} {chunks : List (List Char)} :
    ReadsAlone s chunks s' ↔ s.Fits chunks ∧ s' = s.feed chunks :=
  ⟨ReadsAlone.fits_feed, fun ⟨fits, same⟩ => same ▸ readsAlone_of_fits fits⟩

/--
A handler reading commands dispatches `d` for the chunk `chunk`, in a run in
which no two handlers tokenize a command at once.
-/
def DispatchesAlone (chunk : List Char) (d : Dispatch) : Prop :=
  ∃ s s', s.mode = .command ∧ ReadsAlone s [chunk] s' ∧ s'.dispatched = s.dispatched ++ [d]

theorem DispatchesAlone.eq_dispatch {chunk : List Char} {d : Dispatch}
    (dispatched : DispatchesAlone chunk d) : d = dispatch chunk := by
  obtain ⟨s, s', commanding, reads, recorded⟩ := dispatched
  obtain ⟨-, rfl⟩ := reads.fits_feed
  have fed : (s.feed [chunk]).dispatched = s.dispatched ++ [dispatch chunk] := by
    rw [show s.feed [chunk] = s.receive chunk from rfl, receive_of_command commanding]
  exact (List.singleton_inj.mp (List.append_cancel_left (recorded.symm.trans fed)))

/-- Every chunk that fits a command's `recv` is dispatched, as `dispatch` says. -/
theorem dispatchesAlone_of_fits {chunk : List Char} (positive : 0 < chunk.length)
    (short : chunk.length < bufSize) : DispatchesAlone chunk (dispatch chunk) := by
  refine ⟨Session.initial, _, rfl, readsAlone_of_fits ⟨⟨positive, ?_⟩, trivial⟩, rfl⟩
  simp only [Session.limit, Session.initial]
  omega

/-! ## Command streams -/

end ChatServer.SharedStrtok
