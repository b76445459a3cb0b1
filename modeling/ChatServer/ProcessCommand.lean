import ChatServer.ClientReceive
import ChatServer.UniqueName
import ChatServer.TermInput
import ChatServer.SharedStrtok

/-!
# The client's `process_command`

At each Enter the client's input loop hands the line it holds to
`process_command`, which cuts its first word with `strtok(line, " \n")` and
then, per command, reads its arguments with further `strtok` calls, checks
them, and either draws a message with `ti_draw_message` or formats the
command with `snprintf(buf, sizeof(buf), ...)` and `send`s it.  `/sendfile`
also `stat`s the file, checks its size and extension, sends the header line,
and copies the file's bytes after it; when `open` fails the header has
already gone out.

The model takes the line as characters and the file system as a map from
paths to the bytes `stat` and `read` see and whether `open` succeeds.  The
drawing calls (`ti_draw_newline`, `ti_draw_prompt`) and the debug `printf`
of `/whisper` are left out: they write to the terminal only.

Every line the editor of `ChatServer.TermInput` hands over is a short C
string without CR or LF.  From such a line `process_command` sends nothing,
or one command the server's `dispatch` reads back as the client meant it,
followed by its file, or, when the file cannot be opened, a `/sendfile` line
alone, after which the server takes the client's next bytes as the file.
-/

namespace ChatServer.ProcessCommand

open ChatServer.Basic ChatServer.CommandParsing ChatServer.ClientReceive ChatServer.SharedStrtok
  ChatServer.UniqueName ChatServer.TermInput

/-! ## The model -/

/-- The messages `process_command` draws with `ti_draw_message`. -/
inductive Notice where
  | usage
  | joinUsage
  | broadcastUsage
  | whisperSelf
  | whisperUsage
  | sendfileSelf
  | sendfileUsage
  | fileNotFound
  | fileSize
  | fileType
  | cannotOpen
  | invalid
  deriving DecidableEq, Repr

/-- `USAGE_TEXT`. -/
def usageText : String :=
  "Available commands:\n" ++
  "  /join <room_name>        Join or create a room\n" ++
  "  /leave                   Leave the current room\n" ++
  "  /broadcast <message>     Send message to everyone in the room\n" ++
  "  /whisper <user> <msg>    Send private message\n" ++
  "  /sendfile <file> <user>  Send file to user\n" ++
  "  /exit                    Disconnect from server\n" ++
  "  /usage                   Show this help message\n"

/-- The text each message draws. -/
def Notice.text : Notice → String
  | .usage => usageText
  | .joinUsage => "[WARN] Usage: /join <room_name>\n"
  | .broadcastUsage => "[WARN] Usage: /broadcast <message>\n"
  | .whisperSelf => "[ERROR] Cannot whisper to yourself.\n"
  | .whisperUsage => "[WARN] Usage: /whisper <user> <message>\n"
  | .sendfileSelf => "[ERROR] Cannot sendfile to yourself.\n"
  | .sendfileUsage => "[WARN] Usage: /sendfile <file> <user>\n"
  | .fileNotFound => "[ERROR] File not found.\n"
  | .fileSize => "[ERROR] File size must be between 1 byte and 3MB.\n"
  | .fileType => "[ERROR] Only .txt, .pdf, .jpg, .png allowed.\n"
  | .cannotOpen => "[ERROR] Cannot open file for reading.\n"
  | .invalid => "[WARN] Invalid command. Use /usage\n"

/-- What one call of `process_command` does: the bytes it `send`s and the message it draws. -/
structure Outcome where
  sent : List Char
  drawn : Option Notice
  deriving DecidableEq, Repr

/-- A file as `stat`, `open` and `read` find it. -/
structure FileEntry where
  /-- The bytes `read` returns; `st_size` is their number. -/
  bytes : List Char
  /-- `open(filename, O_RDONLY)` succeeds. -/
  readable : Bool
  deriving DecidableEq, Repr

/-- The client's file system: the file at each path, if any. -/
abbrev Files := List Char → Option FileEntry

/--
`snprintf(buf, sizeof(buf), ...)` of a command's line, then
`send(sockfd, buf, strlen(buf), 0)`.
-/
def sendLine (c : ClientCommand) : List Char :=
  (snprintf clientBufSize c.line).1

/-- The extensions `/sendfile` lets through. -/
def allowedExtensions : List (List Char) :=
  [".txt".toList, ".pdf".toList, ".jpg".toList, ".png".toList]

/-- `strrchr(filename, '.')` is not NULL and compares equal to an allowed extension. -/
def extensionAllowed (filename : List Char) : Bool :=
  decide ('.' ∈ filename) && decide ((splitExtension filename).2 ∈ allowedExtensions)

/--
`while (total < filesize)`: `read(fd, buf, sizeof(buf))` returns the next
`BUF_SIZE` bytes or fewer, which are sent; a read of nothing ends the loop.
-/
def copyLoop (filesize total : Nat) (left : List Char) : List (List Char) :=
  if total < filesize then
    match left with
    | [] => []
    | c :: cs =>
        (c :: cs).take clientBufSize ::
          copyLoop filesize (total + ((c :: cs).take clientBufSize).length)
            ((c :: cs).drop clientBufSize)
  else []
termination_by left.length
decreasing_by simp only [List.length_drop, List.length_cons, clientBufSize]; omega

/--
`/sendfile` once the target `user` and `filename` are read: `stat`, the size
and extension checks, the header line, then `open` and the copy loop.
-/
def sendFile (files : Files) (user filename : List Char) : Outcome :=
  match files filename with
  | none => ⟨[], some .fileNotFound⟩
  | some file =>
      if file.bytes.length = 0 ∨ maxFileSize < file.bytes.length then ⟨[], some .fileSize⟩
      else if !extensionAllowed filename then ⟨[], some .fileType⟩
      else if file.readable then
        ⟨sendLine (.sendfile filename user file.bytes) ++
          (copyLoop file.bytes.length 0 file.bytes).flatten, none⟩
      else ⟨sendLine (.sendfile filename user file.bytes), some .cannotOpen⟩

/-- `/join`: a room name and nothing after it. -/
def processJoin (rest : List Char) : Outcome :=
  match strtok [' ', '\n'] rest with
  | (some room, rest) =>
      match (strtok [' ', '\n'] rest).1 with
      | none => ⟨sendLine (.join room), none⟩
      | some _ => ⟨[], some .joinUsage⟩
  | (none, _) => ⟨[], some .joinUsage⟩

/-- `/broadcast`: the rest of the line up to LF. -/
def processBroadcast (rest : List Char) : Outcome :=
  match (strtok ['\n'] rest).1 with
  | some message => ⟨sendLine (.broadcast message), none⟩
  | none => ⟨[], some .broadcastUsage⟩

/-- `/whisper`: the target, who is not the client itself, and the message. -/
def processWhisper (self rest : List Char) : Outcome :=
  match strtok [' ', '\n'] rest with
  | (user, rest) =>
      if user = some self then ⟨[], some .whisperSelf⟩
      else
        match user, (strtok ['\n'] rest).1 with
        | some user, some message => ⟨sendLine (.whisper user message), none⟩
        | _, _ => ⟨[], some .whisperUsage⟩

/-- `/sendfile`: the target first, who is not the client itself, then the file's name. -/
def processSendfile (self : List Char) (files : Files) (rest : List Char) : Outcome :=
  match strtok [' ', '\n'] rest with
  | (user, rest) =>
      if user = some self then ⟨[], some .sendfileSelf⟩
      else
        match (strtok [' ', '\n'] rest).1, user with
        | some filename, some user => sendFile files user filename
        | _, _ => ⟨[], some .sendfileUsage⟩

/--
`process_command(line)` of the client whose name is `self`: the first word
chooses the command; a line with no word does nothing.
-/
def processCommand (self : List Char) (files : Files) (line : List Char) : Outcome :=
  match strtok [' ', '\n'] line with
  | (none, _) => ⟨[], none⟩
  | (some tok, rest) =>
      if tok = "/usage".toList then ⟨[], some .usage⟩
      else if tok = "/join".toList then processJoin rest
      else if tok = "/leave".toList then ⟨"/leave\n".toList, none⟩
      else if tok = "/broadcast".toList then processBroadcast rest
      else if tok = "/whisper".toList then processWhisper self rest
      else if tok = "/sendfile".toList then processSendfile self files rest
      else if tok = "/exit".toList then ⟨"/exit\n".toList, none⟩
      else ⟨[], some .invalid⟩

/-- A byte of the line as the `char` `process_command` reads. -/
def byteChar (b : UInt8) : Char :=
  Char.ofNat b.toNat

/-- The line the input loop hands over, as characters. -/
def toChars (line : List UInt8) : List Char :=
  line.map byteChar

/-! ## Lines the editor hands over -/

/-- Characters with no CR, LF or NUL among them. -/
def Plain (s : List Char) : Prop :=
  ∀ c ∈ s, c ≠ '\r' ∧ c ≠ '\n' ∧ c ≠ Char.ofNat 0

instance : DecidablePred Plain := fun s =>
  inferInstanceAs (Decidable (∀ c ∈ s, c ≠ '\r' ∧ c ≠ '\n' ∧ c ≠ Char.ofNat 0))

/-- A line `process_command` can receive: plain, and at most `TI_MAXLINE - 1` characters. -/
structure TypedLine (line : List Char) : Prop where
  plain : Plain line
  short : line.length ≤ tiMaxline - 1

theorem byteChar_toNat (b : UInt8) : (byteChar b).toNat = b.toNat := by
  have small := b.toNat_lt_size
  rw [byteChar, Char.ofNat, dif_pos (Or.inl (by simp only [UInt8.size] at small; omega))]
  rfl

theorem toNat_of_byteChar {b : UInt8} {c : Char} (same : byteChar b = c) : b.toNat = c.toNat := by
  rw [← same, byteChar_toNat]

/-- A line the editor hands over reaches `process_command` as a typed line. -/
theorem typedLine_of_handed {line : List UInt8} (handed : Handed line) :
    TypedLine (toChars line) := by
  refine ⟨fun c member => ?_, by rw [toChars, List.length_map]; exact handed.2⟩
  obtain ⟨b, held, rfl⟩ := List.mem_map.mp member
  obtain ⟨noEnter, nonzero⟩ := handed.1 b held
  refine ⟨fun cr => ?_, fun lf => ?_,
    fun nul => nonzero (UInt8.toNat.inj (toNat_of_byteChar nul))⟩
  · have enter : b = '\r'.toUInt8 := UInt8.toNat.inj (toNat_of_byteChar cr)
    simp [enter, isEnter] at noEnter
  · have enter : b = '\n'.toUInt8 := UInt8.toNat.inj (toNat_of_byteChar lf)
    simp [enter, isEnter] at noEnter

/-! ## The words `strtok` cuts from a typed line -/

section Strtok

variable {part token rest : List Char}

theorem strtok_fst {delims : List Char} (first : (strtok delims part).1 = some token) :
    strtok delims part = (some token, (strtok delims part).2) :=
  Prod.ext first rfl

theorem strtok_plain {delims : List Char} (plain : Plain part)
    (cut : strtok delims part = (some token, rest)) :
    token ≠ [] ∧ (∀ c ∈ token, delims.contains c = false) ∧ Plain token ∧ Plain rest ∧
      token.length + rest.length ≤ part.length := by
  obtain ⟨nonempty, outside, skipped, sep, rfl, -⟩ := strtok_eq_some cut
  refine ⟨nonempty, outside, fun c member => plain c (by simp [member]),
    fun c member => plain c (by simp [member]), by simp only [List.length_append]; omega⟩

/-- A word cut at spaces and LFs is a `Token`. -/
theorem token_of_strtok (plain : Plain part)
    (cut : strtok [' ', '\n'] part = (some token, rest)) :
    Token token ∧ Plain rest ∧ token.length + rest.length ≤ part.length := by
  obtain ⟨nonempty, outside, plainToken, plainRest, bound⟩ := strtok_plain plain cut
  refine ⟨⟨nonempty, fun c member => ⟨?_, (plainToken c member).2.2⟩⟩, plainRest, bound⟩
  have cut := outside c member
  simp only [spaceOrEol, List.mem_cons, List.not_mem_nil, or_false, not_or]
  refine ⟨fun space => ?_, (plainToken c member).1, fun lf => ?_⟩
  · rw [space] at cut; exact absurd cut (by decide)
  · rw [lf] at cut; exact absurd cut (by decide)

/-- A message cut at LFs is a `Text`. -/
theorem text_of_strtok (plain : Plain part) (cut : strtok ['\n'] part = (some token, rest)) :
    Text token ∧ token.length ≤ part.length := by
  obtain ⟨nonempty, -, plainToken, -, bound⟩ := strtok_plain plain cut
  exact ⟨⟨nonempty, fun c member => (plainToken c member).2⟩, by omega⟩

end Strtok

/-! ## What a line can make the client send -/

/-- The user a command names as its recipient: the target of `/whisper` and of `/sendfile`. -/
def recipient : ClientCommand → Option (List Char)
  | .whisper user _ => some user
  | .sendfile _ user _ => some user
  | _ => none

/-- A `/sendfile` uploads the file at its path, readable and with an allowed extension. -/
def Uploads (files : Files) : ClientCommand → Prop
  | .sendfile filename _ payload =>
      files filename = some ⟨payload, true⟩ ∧ extensionAllowed filename = true
  | _ => True

/--
The outcomes of `process_command` on a typed line of the client `self`: it
sends nothing and draws anything but the failed `open`; it sends one
well-formed command of at most `TI_MAXLINE + 20` characters, not addressed
to `self`, and for `/sendfile` the file at its path; or it sends the line of
such a `/sendfile` for a file that then cannot be opened.
-/
inductive Outcome.WellFormed (self : List Char) (files : Files) : Outcome → Prop
  | quiet {notice : Option Notice} :
      notice ≠ some .cannotOpen → Outcome.WellFormed self files ⟨[], notice⟩
  | sends {c : ClientCommand} : c.WellFormed → c.line.length ≤ tiMaxline + 20 →
      recipient c ≠ some self → Uploads files c →
      Outcome.WellFormed self files ⟨c.line ++ c.upload.getD [], none⟩
  | headerOnly {filename user payload : List Char} :
      (ClientCommand.sendfile filename user payload).WellFormed →
        (ClientCommand.sendfile filename user payload).line.length ≤ tiMaxline + 20 →
        user ≠ self →
        files filename = some ⟨payload, false⟩ → extensionAllowed filename = true →
        Outcome.WellFormed self files
          ⟨(ClientCommand.sendfile filename user payload).line, some .cannotOpen⟩

/-- A line of at most `TI_MAXLINE + 20` characters is shorter than `BUF_SIZE`. -/
theorem lt_bufSize_of_bounded {n : Nat} (bounded : n ≤ tiMaxline + 20) : n < bufSize := by
  unfold tiMaxline at bounded; unfold bufSize; omega

/-- `snprintf` keeps a well-formed command's line whole. -/
theorem sendLine_of_wellFormed {c : ClientCommand} (wellFormed : c.WellFormed) :
    sendLine c = c.line :=
  List.take_of_length_le
    (by have short := wellFormed.1; unfold bufSize at short; unfold clientBufSize; omega)

theorem Outcome.WellFormed.sendLine {self : List Char} {files : Files} {c : ClientCommand}
    (wellFormed : c.WellFormed) (bounded : c.line.length ≤ tiMaxline + 20)
    (other : recipient c ≠ some self) (noUpload : c.upload = none) :
    Outcome.WellFormed self files ⟨ProcessCommand.sendLine c, none⟩ := by
  have uploads : Uploads files c := by cases c <;> trivial
  have sends := Outcome.WellFormed.sends wellFormed bounded other uploads
  rwa [noUpload, Option.getD_none, List.append_nil, ← sendLine_of_wellFormed wellFormed] at sends

/-- `"%zu"` of a size up to 3 MiB has at most seven digits. -/
theorem toDigits_length_le {n : Nat} (within : n ≤ maxFileSize) :
    (Nat.toDigits 10 n).length ≤ 7 :=
  Nat.toDigitsCore_length 10 (by decide) (n + 1) n 7 (lt_of_le_of_lt within (by decide)) (by decide)

/-- The copy loop sends a file that keeps its `stat` size whole. -/
theorem copyLoop_flatten (total : Nat) (left : List Char) :
    (copyLoop (total + left.length) total left).flatten = left := by
  match left with
  | [] => rw [copyLoop.eq_def]; split <;> rfl
  | c :: cs =>
      have sized : total + (c :: cs).length = total + ((c :: cs).take clientBufSize).length +
          ((c :: cs).drop clientBufSize).length := by
        rw [Nat.add_assoc, ← List.length_append, List.take_append_drop]
      rw [copyLoop.eq_def, if_pos (by simp)]
      dsimp only
      rw [List.flatten_cons, sized, copyLoop_flatten, List.take_append_drop]
termination_by left.length
decreasing_by simp only [List.length_drop, List.length_cons, clientBufSize]; omega

/-- Both branches of a test have outcomes of the kind above. -/
theorem Outcome.WellFormed.ite {self : List Char} {files : Files} {c : Prop} [Decidable c]
    {a b : Outcome} (yes : a.WellFormed self files) (no : b.WellFormed self files) :
    (if c then a else b).WellFormed self files := by
  by_cases h : c
  · rwa [if_pos h]
  · rwa [if_neg h]

/-! ## The lengths of the lines sent -/

section LineLength

variable (filename user room message payload : List Char)

theorem line_length_join : (ClientCommand.join room).line.length = room.length + 7 := by
  simp only [ClientCommand.line, List.length_append, List.length_cons, List.length_singleton,
    List.length_nil]
  show 5 + _ = _
  omega

theorem line_length_broadcast :
    (ClientCommand.broadcast message).line.length = message.length + 12 := by
  simp only [ClientCommand.line, List.length_append, List.length_cons, List.length_singleton,
    List.length_nil]
  show 10 + _ = _
  omega

theorem line_length_whisper :
    (ClientCommand.whisper user message).line.length = user.length + message.length + 11 := by
  simp only [ClientCommand.line, List.length_append, List.length_cons, List.length_singleton,
    List.length_nil]
  show 8 + _ = _
  omega

theorem line_length_sendfile :
    (ClientCommand.sendfile filename user payload).line.length =
      filename.length + user.length + (Nat.toDigits 10 payload.length).length + 13 := by
  simp only [ClientCommand.line, List.length_append, List.length_cons, List.length_singleton,
    List.length_nil]
  show 9 + _ = _
  omega

end LineLength

/-! ## Each command -/

section Branches

variable {self rest : List Char} {files : Files}

theorem sendFile_wellFormed {user filename : List Char} (userToken : Token user)
    (nameToken : Token filename) (short : filename.length + user.length ≤ tiMaxline - 1)
    (other : user ≠ self) : (sendFile files user filename).WellFormed self files := by
  unfold sendFile
  split
  · exact .quiet nofun
  next file found =>
    obtain ⟨bytes, readable⟩ := file
    split_ifs with size type opened
    · exact .quiet nofun
    · exact .quiet nofun
    all_goals
      dsimp only at size opened
      have allowed : extensionAllowed filename = true := by simpa using type
      have digits := toDigits_length_le (n := bytes.length) (by omega)
      have bounded :
          (ClientCommand.sendfile filename user bytes).line.length ≤ tiMaxline + 20 := by
        rw [line_length_sendfile]; omega
      have wellFormed : (ClientCommand.sendfile filename user bytes).WellFormed :=
        ⟨lt_bufSize_of_bounded bounded, nameToken, userToken, by omega, by omega⟩
      rw [sendLine_of_wellFormed wellFormed]
    · have copied := copyLoop_flatten 0 bytes
      rw [Nat.zero_add] at copied
      rw [copied]
      exact .sends wellFormed bounded (fun same => other (Option.some.inj same))
        ⟨by rw [found, opened], allowed⟩
    · exact .headerOnly wellFormed bounded other (by rw [found, eq_false_of_ne_true opened])
        allowed

theorem processJoin_wellFormed (plain : Plain rest) (short : rest.length ≤ tiMaxline - 1) :
    (processJoin rest).WellFormed self files := by
  unfold processJoin
  split
  next room rest' cut =>
    obtain ⟨token, -, bound⟩ := token_of_strtok plain cut
    split
    · have bounded : (ClientCommand.join room).line.length ≤ tiMaxline + 20 := by
        rw [line_length_join]; omega
      exact .sendLine ⟨lt_bufSize_of_bounded bounded, token⟩ bounded nofun rfl
    · exact .quiet nofun
  · exact .quiet nofun

theorem processBroadcast_wellFormed (plain : Plain rest) (short : rest.length ≤ tiMaxline - 1) :
    (processBroadcast rest).WellFormed self files := by
  unfold processBroadcast
  split
  next message first =>
    obtain ⟨text, bound⟩ := text_of_strtok plain (strtok_fst first)
    have bounded : (ClientCommand.broadcast message).line.length ≤ tiMaxline + 20 := by
      rw [line_length_broadcast]; omega
    exact .sendLine ⟨lt_bufSize_of_bounded bounded, text⟩ bounded nofun rfl
  · exact .quiet nofun

theorem processWhisper_wellFormed (plain : Plain rest) (short : rest.length ≤ tiMaxline - 1) :
    (processWhisper self rest).WellFormed self files := by
  unfold processWhisper
  split
  next user rest' cut =>
    split_ifs
    · exact .quiet nofun
    split
    next target message first other =>
      obtain ⟨token, plain', bound⟩ := token_of_strtok plain cut
      obtain ⟨text, bound'⟩ := text_of_strtok plain' (strtok_fst first)
      have bounded : (ClientCommand.whisper target message).line.length ≤ tiMaxline + 20 := by
        rw [line_length_whisper]; omega
      exact .sendLine ⟨lt_bufSize_of_bounded bounded, token, text⟩ bounded other rfl
    · exact .quiet nofun

theorem processSendfile_wellFormed (plain : Plain rest) (short : rest.length ≤ tiMaxline - 1) :
    (processSendfile self files rest).WellFormed self files := by
  unfold processSendfile
  split
  next user rest' cut =>
    split_ifs
    · exact .quiet nofun
    split
    next filename target first other =>
      obtain ⟨userToken, plain', bound⟩ := token_of_strtok plain cut
      obtain ⟨nameToken, -, bound'⟩ := token_of_strtok plain' (strtok_fst first)
      exact sendFile_wellFormed userToken nameToken (by omega)
        (fun same => other (congrArg some same))
    · exact .quiet nofun

end Branches

/-- From every typed line, `process_command` has one of the outcomes above. -/
theorem processCommand_wellFormed (self : List Char) (files : Files) {line : List Char}
    (typed : TypedLine line) : (processCommand self files line).WellFormed self files := by
  unfold processCommand
  split
  · exact .quiet nofun
  next tok rest cut =>
    obtain ⟨-, plain, bound⟩ := token_of_strtok typed.plain cut
    have short : rest.length ≤ tiMaxline - 1 := by have := typed.short; omega
    -- the chain of `strcmp(tok, ...)` tests, one branch at a time
    refine .ite (.quiet nofun) (.ite (processJoin_wellFormed plain short)
      (.ite (.sends (c := .leave) ⟨by decide, trivial⟩ (by decide) nofun trivial)
        (.ite (processBroadcast_wellFormed plain short)
          (.ite (processWhisper_wellFormed plain short)
            (.ite (processSendfile_wellFormed plain short)
              (.ite (.sends (c := .exit) ⟨by decide, trivial⟩ (by decide) nofun trivial)
                (.quiet nofun)))))))

/-! ## From the keyboard to the server's handler -/

/--
Whatever keys are typed after `ti_input_init`, the input loop runs and hands
each line to `process_command`, which sends nothing, or one well-formed
command not addressed to the client itself followed, for `/sendfile`, by the
readable file at its path, or such a `/sendfile` line alone when the file
cannot be opened.
-/
theorem typed_lines_well_formed (old : InputHandler) (keys : List UInt8) (self : List Char)
    (files : Files) :
    ∃ ih lines, feed (tiInputInit old) keys = some (ih, lines) ∧
      ∀ line ∈ lines, (processCommand self files (toChars line)).WellFormed self files := by
  obtain ⟨ih, fed, -⟩ := feed_spec (tiInputInit_wf old) keys
  exact ⟨ih, _, fed, fun line member =>
    processCommand_wellFormed self files (typedLine_of_handed (handed_of_feed fed line member))⟩

/--
What `process_command` sends for a typed line, unless it stops at a failed
`open`, is read back by the server's handler: when the command line arrives
alone in one chunk at a handler reading commands, and the file after it in
non-empty pieces, the chunks fit the handler's `recv` calls, and in every
run in which no other handler tokenizes meanwhile the handler dispatches the
command with the client's arguments and enqueues the file whole.
-/
theorem sent_command_read_back (self : List Char) (files : Files) {line : List Char}
    (typed : TypedLine line)
    (opened : (processCommand self files line).drawn ≠ some .cannotOpen) :
    (processCommand self files line).sent = [] ∨
      ∃ c : ClientCommand, recipient c ≠ some self ∧
        (processCommand self files line).sent = c.line ++ c.upload.getD [] ∧
        ∀ s : Session, s.mode = .command → ∀ pieces : List (List Char),
          (∀ piece ∈ pieces, piece ≠ []) → pieces.flatten = c.upload.getD [] →
            s.Fits (c.line :: pieces) ∧ ∀ s', ReadsAlone s (c.line :: pieces) s' →
              s' = ⟨if c = .exit then .stopped else .command,
                s.dispatched ++ [c.expected], s.uploads ++ c.upload.toList⟩ := by
  have wellFormed := processCommand_wellFormed self files typed
  generalize processCommand self files line = o at wellFormed opened ⊢
  cases wellFormed with
  | quiet => exact .inl rfl
  | sends wellFormed _ other =>
      refine .inr ⟨_, other, rfl, fun s commanding pieces nonempty cut => ?_⟩
      obtain ⟨fits, fed⟩ :=
        feed_delivery ⟨_, wellFormed, pieces, cut, nonempty⟩ s commanding
      exact ⟨fits, fun s' reads => reads.fits_feed.2.trans fed⟩
  | headerOnly => exact absurd rfl opened

theorem sent_command_read_back_of_whisper :
    TypedLine "/whisper bob hi".toList ∧
      (processCommand "amy".toList (fun _ => none) "/whisper bob hi".toList).drawn ≠
        some .cannotOpen ∧
      ((processCommand "amy".toList (fun _ => none) "/whisper bob hi".toList).sent = [] ∨
        ∃ c : ClientCommand, recipient c ≠ some "amy".toList ∧
          (processCommand "amy".toList (fun _ => none) "/whisper bob hi".toList).sent =
            c.line ++ c.upload.getD [] ∧
          ∀ s : Session, s.mode = .command → ∀ pieces : List (List Char),
            (∀ piece ∈ pieces, piece ≠ []) → pieces.flatten = c.upload.getD [] →
              s.Fits (c.line :: pieces) ∧ ∀ s', ReadsAlone s (c.line :: pieces) s' →
                s' = ⟨if c = .exit then .stopped else .command,
                  s.dispatched ++ [c.expected], s.uploads ++ c.upload.toList⟩) :=
  have typed : TypedLine "/whisper bob hi".toList := ⟨by decide, by decide⟩
  have opened : (processCommand "amy".toList (fun _ => none) "/whisper bob hi".toList).drawn ≠
      some .cannotOpen := by decide
  ⟨typed, opened, sent_command_read_back "amy".toList (fun _ => none) typed opened⟩

/--
When the file of a `/sendfile` cannot be opened, its line has gone out with
the file's size and no file follows: a handler reading commands dispatches
the upload and takes whatever the client sends next, up to that size, as the
file, so the client's next commands are never dispatched.  The chunks fit
the handler's `recv` calls, and the handler reads them so in every run in
which no other handler tokenizes meanwhile.
-/
theorem unreadable_file_swallows_commands (self : List Char) (files : Files) {line : List Char}
    (typed : TypedLine line)
    (refused : (processCommand self files line).drawn = some .cannotOpen) :
    ∃ filename user payload, files filename = some ⟨payload, false⟩ ∧
      (processCommand self files line).sent =
        (ClientCommand.sendfile filename user payload).line ∧
      ∀ s : Session, s.mode = .command → ∀ later : List (List Char),
        (∀ piece ∈ later, piece ≠ []) → later.flatten.length < payload.length →
          s.Fits ((ClientCommand.sendfile filename user payload).line :: later) ∧
          ∀ s', ReadsAlone s ((ClientCommand.sendfile filename user payload).line :: later) s' →
            s' = ⟨.payload payload.length later.flatten,
              s.dispatched ++ [(ClientCommand.sendfile filename user payload).expected],
              s.uploads⟩ := by
  have wellFormed := processCommand_wellFormed self files typed
  generalize processCommand self files line = o at wellFormed refused ⊢
  cases wellFormed with
  | quiet notCannotOpen => exact absurd refused notCannotOpen
  | sends => cases refused
  | headerOnly wellFormed _ _ found =>
      refine ⟨_, _, _, found, rfl, fun s commanding later nonempty short => ?_⟩
      have header := receive_line commanding wellFormed
      rw [modeAfter_sendfile wellFormed] at header
      refine ⟨⟨line_fits commanding wellFormed,
        fits_payload_short later nonempty _ (congrArg Session.mode header) short⟩,
        fun s' reads => ?_⟩
      rw [reads.fits_feed.2, Session.feed, List.foldl_cons, ← Session.feed, header,
        feed_payload_short later _ rfl short]
      rfl

/-- A file `a.txt` of one byte that `open` refuses. -/
def lockedFile : Files :=
  fun name => if name = "a.txt".toList then some ⟨['x'], false⟩ else none

theorem unreadable_file_swallows_commands_of_locked_file :
    TypedLine "/sendfile bob a.txt".toList ∧
      (processCommand "amy".toList lockedFile "/sendfile bob a.txt".toList).drawn =
        some .cannotOpen ∧
      ∃ filename user payload, lockedFile filename = some ⟨payload, false⟩ ∧
        (processCommand "amy".toList lockedFile "/sendfile bob a.txt".toList).sent =
          (ClientCommand.sendfile filename user payload).line ∧
        ∀ s : Session, s.mode = .command → ∀ later : List (List Char),
          (∀ piece ∈ later, piece ≠ []) → later.flatten.length < payload.length →
            s.Fits ((ClientCommand.sendfile filename user payload).line :: later) ∧
            ∀ s',
              ReadsAlone s ((ClientCommand.sendfile filename user payload).line :: later) s' →
                s' = ⟨.payload payload.length later.flatten,
                  s.dispatched ++ [(ClientCommand.sendfile filename user payload).expected],
                  s.uploads⟩ :=
  have typed : TypedLine "/sendfile bob a.txt".toList := ⟨by decide, by decide⟩
  have refused : (processCommand "amy".toList lockedFile "/sendfile bob a.txt".toList).drawn =
      some .cannotOpen := by decide
  ⟨typed, refused, unreadable_file_swallows_commands "amy".toList lockedFile typed refused⟩

end ChatServer.ProcessCommand
