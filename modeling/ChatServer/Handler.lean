import ChatServer.CommandParsing
import ChatServer.Rooms
import ChatServer.SharedStrtok

/-!
# What `client_handler` does with a command

Once `client_handler` has dispatched a chunk (`ChatServer.CommandParsing`),
its branch for the command checks the arguments and the state around it and
either sends its own client an error or an acknowledgement, or hands the
work on: a whisper to `broadcast_message_via_notify`, a broadcast to
`room_broadcast`, an upload to the queue, a room command to the functions of
`ChatServer.Rooms`.

This module models each branch as a function of the dispatched command and
of the answers the rest of the server gives it: whether the target is
online, whether the session is in a room, whether `malloc` succeeds, whether
the payload loop got the whole file, and whether the queue is full.  The
logging and the console output are left out.

The client's own checks (`ChatServer.ProcessCommand`) are at least as strict
as the handler's checks of a command's words: a command the client formats,
dispatched while no other handler tokenizes, never draws a usage error, the
file-size error or the unknown-command error.  Two handlers that tokenize at
once break this: through glibc's one `strtok` save pointer
(`ChatServer.SharedStrtok`), one client's `/broadcast` can send another
client's whisper text to its room while the whisper draws its usage error.
-/

namespace ChatServer.Handler

open ChatServer.Basic ChatServer.CommandParsing ChatServer.Rooms

/-- The replies `client_handler` sends its client for commands other than `/join` and `/leave`. -/
inductive Reply where
  | bye
  | whisperUsage
  | notOnline (target : List Char)
  | broadcastUsage
  | joinFirst
  | sendfileUsage
  | fileSize
  | outOfMemory
  | shortFile
  | queueFull (filename : List Char)
  | queued (filename target : List Char) (size : Nat)
  | unknown
  deriving DecidableEq, Repr

/-- The bytes of each reply, as `client_handler` formats them into a buffer of `BUF_SIZE`. -/
def Reply.text : Reply → List Char
  | .bye => "[INFO] Server is shutting down your connection.\n".toList
  | .whisperUsage => "[ERROR] Usage: /whisper <user> <message>\n".toList
  | .notOnline target =>
      (snprintf bufSize ("[ERROR] User \x27".toList ++ target ++ "\x27 not online.\n".toList)).1
  | .broadcastUsage => "[ERROR] Usage: /broadcast <msg>\n".toList
  | .joinFirst => "[ERROR] Join a room first\n".toList
  | .sendfileUsage => "[ERROR] Usage: /sendfile <filename> <user> <size>\n".toList
  | .fileSize => "[ERROR] File size must be between 1 byte and 3MB.\n".toList
  | .outOfMemory => "[ERROR] Server out of memory. Try later.\n".toList
  | .shortFile => "[ERROR] Failed to receive full file data.\n".toList
  | .queueFull filename =>
      (snprintf bufSize ("[INFO] Upload queue is full. Your file \x27".toList ++ filename ++
        "\x27 will be queued.\n".toList)).1
  | .queued filename target size =>
      (snprintf bufSize ("[OK] File \x27".toList ++ filename ++
        "\x27 queued for sending to ".toList ++ target ++ ". Size: ".toList ++
        Nat.toDigits 10 size ++ " bytes.\n".toList)).1
  | .unknown => "[ERROR] Unknown command.\n".toList

/-- The replies a command draws only when its words are wrong. -/
def Reply.malformed : Reply → Bool
  | .whisperUsage | .broadcastUsage | .sendfileUsage | .fileSize | .unknown => true
  | _ => false

/-- What the rest of the server answers a handler while it runs one command. -/
structure Env where
  /-- `find_connection(target)` finds a session. -/
  online : List Char → Bool
  /-- `connection->room` is set. -/
  inRoom : Bool
  /-- `malloc(filesize)` returns a buffer. -/
  allocated : Bool
  /-- The payload loop received all `filesize` bytes. -/
  complete : Bool
  /-- `file_queue_is_full(upload_queue)`. -/
  queueFull : Bool

/-- The work a command hands on, besides its replies. -/
inductive Effect where
  /-- `broadcast_message_via_notify(connection->username, target, message)`. -/
  | whisper (target message : List Char)
  /-- `room_broadcast(connection->room, connection->username, message)`. -/
  | broadcast (message : List Char)
  /-- `file_queue_enqueue` of an item with the file's name, target and size. -/
  | enqueue (filename target : List Char) (size : Nat)
  /-- A room command, run by `ChatServer.Rooms`, which also sends its reply. -/
  | room (command : RoomCommand)
  /-- `break`: the loop ends and the teardown runs. -/
  | stop
  deriving DecidableEq, Repr

/-- The `/sendfile` branch once its three words are read. -/
def handleSendfile (env : Env) (filename target size : List Char) : List Reply × List Effect :=
  let filesize := strtoul size
  if filesize = 0 ∨ maxFileSize < filesize then ([.fileSize], [])
  else if !env.allocated then ([.outOfMemory], [])
  else if !env.complete then ([.shortFile], [])
  else
    ((if env.queueFull then [.queueFull filename] else []) ++ [.queued filename target filesize],
      [.enqueue filename target filesize])

/-- The branch of `client_handler` for a dispatched command: its replies and the work handed on. -/
def handleCommand (env : Env) : Dispatch → List Reply × List Effect
  | .exit => ([.bye], [.stop])
  | .whisper target message =>
      match target, message with
      | some target, some message =>
          if env.online target then ([], [.whisper target message])
          else ([.notOnline target], [])
      | _, _ => ([.whisperUsage], [])
  | .join roomName extra => ([], [.room (.join roomName extra)])
  | .leave => ([], [.room .leave])
  | .broadcast message =>
      match message with
      | some message =>
          if env.inRoom then ([], [.broadcast message]) else ([.joinFirst], [])
      | none => ([.broadcastUsage], [])
  | .sendfile filename target size =>
      match filename, target, size with
      | some filename, some target, some size => handleSendfile env filename target size
      | _, _, _ => ([.sendfileUsage], [])
  | .unknown => ([.unknown], [])

/-- A size in range passes the handler's check, and the upload goes on to the buffer. -/
theorem handleSendfile_of_size {env : Env} {filename target : List Char} {n : Nat}
    (positive : 0 < n) (within : n ≤ maxFileSize) :
    handleSendfile env filename target (Nat.toDigits 10 n) =
      if !env.allocated then ([.outOfMemory], [])
      else if !env.complete then ([.shortFile], [])
      else
        ((if env.queueFull then [.queueFull filename] else []) ++ [.queued filename target n],
          [.enqueue filename target n]) := by
  have read := strtoul_toDigits n (by unfold ulongMax; unfold maxFileSize at within; omega)
  simp only [handleSendfile, read, if_neg (show ¬(n = 0 ∨ maxFileSize < n) by omega)]

/-- The `/sendfile` branch hands on nothing but the upload. -/
theorem handleSendfile_effect {env : Env} {filename target size : List Char} {effect : Effect}
    (handed : effect ∈ (handleSendfile env filename target size).2) :
    effect = .enqueue filename target (strtoul size) := by
  unfold handleSendfile at handed
  dsimp only at handed
  split_ifs at handed <;> simp_all

/-- The branch for `d` hands `message` on to other clients, as a broadcast or a whisper. -/
def HandsOn (env : Env) (d : Dispatch) (message : List Char) : Prop :=
  Effect.broadcast message ∈ (handleCommand env d).2 ∨
    ∃ target, Effect.whisper target message ∈ (handleCommand env d).2

/-- Only a `/broadcast` or a `/whisper` with its words hands a message on to other clients. -/
theorem handleCommand_message {env : Env} {d : Dispatch} {message : List Char}
    (handed : HandsOn env d message) :
    d = .broadcast (some message) ∨ ∃ target, d = .whisper (some target) (some message) := by
  unfold HandsOn handleCommand at handed
  split at handed
  case h_6 =>
    split at handed
    · rcases handed with handed | ⟨_, handed⟩ <;> cases handleSendfile_effect handed
    · simp at handed
  all_goals (try split at handed) <;> (try split_ifs at handed) <;> simp_all

theorem joinValid_reply_ne_usage (connection : ConnPtr) (name : List Char) (s : Registry) :
    (joinValid connection name s).2 ≠ some .joinUsage := by
  unfold joinValid
  split
  · nofun
  · split
    · split_ifs <;> nofun
    · nofun

/-- The room commands reply with `/join`'s usage only for a `/join` without one room name. -/
theorem run_reply_ne_usage {command : RoomCommand}
    (named : ∀ roomName extra, command = .join roomName extra →
      (∃ room, roomName = some room) ∧ extra = none)
    (connection : ConnPtr) (s : Registry) : (command.run connection s).2 ≠ some .joinUsage := by
  cases command with
  | join roomName extra =>
      obtain ⟨⟨room, rfl⟩, rfl⟩ := named roomName extra rfl
      simp only [RoomCommand.run, handleJoin]
      split_ifs
      · exact joinValid_reply_ne_usage connection room s
      · nofun
  | leave =>
      simp only [RoomCommand.run, handleLeave]
      split
      · split <;> nofun
      · nofun
  | teardown => nofun

/--
A command the client formats, its line received alone in one chunk while no
other handler tokenizes, is handled as its expected dispatch, and never
draws a reply that only wrong words draw: no usage error, no size error, no
unknown command; and the room command it hands on never replies with
`/join`'s usage either.
-/
theorem formatted_commands_never_malformed (c : ClientCommand) (wellFormed : c.WellFormed)
    (env : Env) : ∀ d, SharedStrtok.DispatchesAlone c.line d →
    (∀ reply ∈ (handleCommand env d).1, reply.malformed = false) ∧
      ∀ command, Effect.room command ∈ (handleCommand env d).2 →
        ∀ connection s, (command.run connection s).2 ≠ some .joinUsage := by
  intro d dispatched
  rw [dispatched.eq_dispatch, dispatch_line c wellFormed]
  cases c with
  | join room =>
      refine ⟨nofun, fun command member => run_reply_ne_usage fun roomName extra named => ?_⟩
      simp only [ClientCommand.expected, handleCommand, List.mem_singleton, Effect.room.injEq]
        at member
      rw [member, RoomCommand.join.injEq] at named
      obtain ⟨rfl, rfl⟩ := named
      exact ⟨⟨room, rfl⟩, rfl⟩
  | leave =>
      refine ⟨nofun, fun command member => run_reply_ne_usage fun roomName extra named => ?_⟩
      simp only [ClientCommand.expected, handleCommand, List.mem_singleton, Effect.room.injEq]
        at member
      cases member.symm.trans named
  | sendfile filename user payload =>
      obtain ⟨-, -, -, positive, within⟩ := wellFormed
      simp only [ClientCommand.expected, handleCommand, handleSendfile_of_size positive within]
      constructor <;> split_ifs <;> simp [Reply.malformed]
  | _ =>
      simp only [ClientCommand.expected, handleCommand]
      constructor <;> (try split_ifs) <;> simp [Reply.malformed]

/-- Every target online, the session in a room, and an upload that goes through a full queue. -/
def busyServer : Env :=
  ⟨fun _ => true, true, true, true, true⟩

theorem formatted_commands_never_malformed_of_join :
    (ClientCommand.join "lobby".toList).WellFormed ∧
      SharedStrtok.DispatchesAlone (ClientCommand.join "lobby".toList).line
        (dispatch (ClientCommand.join "lobby".toList).line) ∧
      (∀ reply ∈
          (handleCommand busyServer (dispatch (ClientCommand.join "lobby".toList).line)).1,
        reply.malformed = false) ∧
      ∀ command, Effect.room command ∈
          (handleCommand busyServer (dispatch (ClientCommand.join "lobby".toList).line)).2 →
        ∀ connection s, (command.run connection s).2 ≠ some .joinUsage :=
  have wellFormed : (ClientCommand.join "lobby".toList).WellFormed := by decide
  have dispatched := SharedStrtok.dispatchesAlone_of_fits (by decide) wellFormed.1
  ⟨wellFormed, dispatched,
    formatted_commands_never_malformed _ wellFormed busyServer _ dispatched⟩

/-! ## Two handlers tokenizing at once -/

section SharedSave

open SharedStrtok

/--
Two handlers reading commands receive a `/broadcast` and a `/whisper` line
that their clients formatted, and each makes its `strtok` calls in turn.
The broadcast's `strtok(NULL, "\n")` resumes in the whisper's buffer: the
broadcast handler sends the whisper's target and text to its room, and the
whisper handler finds no arguments left and replies with its usage.
-/
theorem interleaved_commands_leak_whisper (t : Handlers) {a b : Nat}
    (distinct : a ≠ b) (readyA : t.pcs a = .reading) (readyB : t.pcs b = .reading)
    (commandA : (t.sessions a).mode = .command) (commandB : (t.sessions b).mode = .command)
    {note user message : List Char} (broadcast : (ClientCommand.broadcast note).WellFormed)
    (whisper : (ClientCommand.whisper user message).WellFormed) (env : Env) :
    ∃ t', Run Handlers.AnyStep t
        [.recv a (ClientCommand.broadcast note).line,
          .recv b (ClientCommand.whisper user message).line,
          .strtok a, .strtok b, .strtok a, .strtok b, .strtok b] t' ∧
      (t'.sessions a).dispatched =
        (t.sessions a).dispatched ++ [.broadcast (some (user ++ ' ' :: message))] ∧
      (t'.sessions b).dispatched = (t.sessions b).dispatched ++ [.whisper none none] ∧
      (env.inRoom = true → (handleCommand env (.broadcast (some (user ++ ' ' :: message)))).2 =
        [.broadcast (user ++ ' ' :: message)]) ∧
      (handleCommand env (.whisper none none)).1 = [.whisperUsage] := by
  have other : b ≠ a := distinct.symm
  -- both lines are received
  obtain ⟨t2, run2, pcA2, pcB2, sessions2, lineA2, lineB2⟩ :
      ∃ t2, Run Handlers.AnyStep t
          [.recv a (ClientCommand.broadcast note).line,
            .recv b (ClientCommand.whisper user message).line] t2 ∧
        t2.pcs a = .tokenizing ∧ t2.pcs b = .tokenizing ∧ t2.sessions = t.sessions ∧
        cStringAt (t2.buffers a) 0 = (ClientCommand.broadcast note).line ∧
        cStringAt (t2.buffers b) 0 = (ClientCommand.whisper user message).line := by
    have step1 := apply_load readyA commandA (by simp [ClientCommand.line]) broadcast.1
    have step2 := apply_load (t := t.load a (ClientCommand.broadcast note).line)
      (by simp [Function.update_noteq other, readyB]) commandB (by simp [ClientCommand.line])
      whisper.1
    refine ⟨_, (Run.nil.snoc trivial step1).snoc trivial step2,
      by simp [Function.update_noteq distinct], by simp, rfl, ?_,
      load_cStringAt (line_no_nul _ whisper)⟩
    rw [show ((t.load a _).load b _).buffers a = (t.load a _).buffers a from
      Function.update_noteq distinct _ _, load_cStringAt (line_no_nul _ broadcast)]
  -- `a` cuts its command word
  obtain ⟨t3, step3, pcA3, pcB3, sessions3, lineB3⟩ : ∃ t3, t2.apply (.strtok a) = some t3 ∧
      t3.pcs a = .arguments "/broadcast".toList [] ['\n'] [] ∧ t3.pcs b = .tokenizing ∧
      t3.sessions = t.sessions ∧
      cStringAt (t3.buffers b) 0 = (ClientCommand.whisper user message).line := by
    obtain ⟨_, _, -, step⟩ := apply_commandCall pcA2
      (by rw [lineA2]; exact strtok_token (by decide) (by decide) (by decide))
    rw [show argumentDelims "/broadcast".toList = [['\n']] by decide] at step
    refine ⟨_, step, ?_⟩
    simp [Handlers.proceed, Function.update_noteq other, pcB2, sessions2, lineB2]
  -- `b` cuts its command word, and the save pointer moves into `b`'s buffer
  obtain ⟨t4, step4, pcA4, pcB4, sessions4, o4, saved4, text4⟩ : ∃ t4,
      t3.apply (.strtok b) = some t4 ∧ t4.pcs a = .arguments "/broadcast".toList [] ['\n'] [] ∧
      t4.pcs b = .arguments "/whisper".toList [] [' '] [['\n']] ∧ t4.sessions = t.sessions ∧
      ∃ o4, t4.save = some (b, o4) ∧
        cStringAt (t4.buffers b) o4 = user ++ ' ' :: (message ++ ['\n']) := by
    obtain ⟨_, _, rest, step⟩ := apply_commandCall pcB3
      (by rw [lineB3]; exact strtok_token (by decide) (by decide) (by decide))
    rw [show argumentDelims "/whisper".toList = [[' '], ['\n']] by decide] at step
    refine ⟨_, step, ?_⟩
    simp [Handlers.proceed, Function.update_noteq distinct, pcA3, sessions3, rest]
  -- `a` takes the rest of the whisper as its broadcast
  have user' : Token user := whisper.2.1
  have message' : Text message := whisper.2.2
  have leaked : strtok ['\n'] (user ++ ' ' :: (message ++ ['\n'])) =
      (some (user ++ ' ' :: message), []) := by
    rw [show user ++ ' ' :: (message ++ ['\n']) = (user ++ ' ' :: message) ++ '\n' :: [] by simp]
    refine strtok_token (by simp [user'.1]) ?_ (by decide)
    simp only [List.mem_append, List.mem_cons]
    rintro c (inUser | rfl | inMessage)
    exacts [user'.clean (by decide) c inUser, rfl, message'.clean c inMessage]
  obtain ⟨t5, step5, pcB5, sessionA5, sessionB5, o5, saved5, text5⟩ : ∃ t5,
      t4.apply (.strtok a) = some t5 ∧
      t5.pcs b = .arguments "/whisper".toList [] [' '] [['\n']] ∧
      t5.sessions a = recordDispatch (t.sessions a) (.broadcast (some (user ++ ' ' :: message))) ∧
      t5.sessions b = t.sessions b ∧
      ∃ o5, t5.save = some (b, o5) ∧ cStringAt (t5.buffers b) o5 = [] := by
    obtain ⟨_, _, rest, step⟩ := apply_argumentCall pcA4 saved4
    rw [text4, leaked] at rest step
    refine ⟨_, step, ?_⟩
    simp [Handlers.proceed, Handlers.finish, Function.update_noteq other, pcB4, sessions4, rest]
    rfl
  -- `b`'s calls for the target and the message find nothing left
  obtain ⟨t6, step6, pcB6, sessions6, o6, saved6, text6⟩ : ∃ t6,
      t5.apply (.strtok b) = some t6 ∧
      t6.pcs b = .arguments "/whisper".toList [none] ['\n'] [] ∧
      t6.sessions = t5.sessions ∧
      ∃ o6, t6.save = some (b, o6) ∧ cStringAt (t6.buffers b) o6 = [] := by
    obtain ⟨_, _, rest, step⟩ := apply_argumentCall pcB5 saved5
    rw [text5, strtok_nil] at rest step
    refine ⟨_, step, ?_⟩
    simp [Handlers.proceed, rest]
  obtain ⟨_, _, -, step7⟩ := apply_argumentCall pcB6 saved6
  rw [text6, strtok_nil] at step7
  refine ⟨_, ((((run2.snoc trivial step3).snoc trivial step4).snoc trivial step5).snoc trivial
    step6).snoc trivial step7, ?_, ?_, fun inRoom => by simp [handleCommand, inRoom], rfl⟩
  · simp [Handlers.proceed, Function.update_noteq distinct, sessions6, sessionA5]
    rfl
  · simp [Handlers.proceed, sessions6, sessionB5]
    rfl

/-- `hi` broadcast and `yo` whispered to `bob` by two clients of a fresh server. -/
theorem interleaved_commands_leak_whisper_of_bob :
    (ClientCommand.broadcast "hi".toList).WellFormed ∧
      (ClientCommand.whisper "bob".toList "yo".toList).WellFormed ∧
      ∃ t', Run Handlers.AnyStep (Handlers.waiting Session.initial)
          [.recv 0 (ClientCommand.broadcast "hi".toList).line,
            .recv 1 (ClientCommand.whisper "bob".toList "yo".toList).line,
            .strtok 0, .strtok 1, .strtok 0, .strtok 1, .strtok 1] t' ∧
        (t'.sessions 0).dispatched = ((Handlers.waiting Session.initial).sessions 0).dispatched ++
          [.broadcast (some ("bob".toList ++ ' ' :: "yo".toList))] ∧
        (t'.sessions 1).dispatched =
          ((Handlers.waiting Session.initial).sessions 1).dispatched ++ [.whisper none none] ∧
        (busyServer.inRoom = true →
          (handleCommand busyServer (.broadcast (some ("bob".toList ++ ' ' :: "yo".toList)))).2 =
            [.broadcast ("bob".toList ++ ' ' :: "yo".toList)]) ∧
        (handleCommand busyServer (.whisper none none)).1 = [.whisperUsage] :=
  have broadcast : (ClientCommand.broadcast "hi".toList).WellFormed := by decide
  have whisper : (ClientCommand.whisper "bob".toList "yo".toList).WellFormed := by decide
  ⟨broadcast, whisper, interleaved_commands_leak_whisper _ (by decide) rfl rfl rfl rfl broadcast
    whisper busyServer⟩

end SharedSave

end ChatServer.Handler
