import ChatServer.ProcessCommand
import ChatServer.UploadPipeline
import ChatServer.Directory
import ChatServer.Handler
import ChatServer.RoomBroadcast

/-!
# From one client to another

A `/sendfile` crosses the whole system.  The sender's `process_command`
sends the line `/sendfile <file> <user> <size>` and the file's bytes; the
sender's `client_handler` reads them into a buffer and builds a
`file_item_t` with the file's name, the announced size, its own user's name
and the target; a `file_upload_worker` writes the header `[FILE name size
sender]` and then the bytes into the recipient's notify channel; the
recipient's `client_handler` forwards them; and the recipient's
`recv_thread` parses the header and saves the bytes.

This module joins the models of these steps: the item the handler builds
for a command the client formats, dispatched while no other handler
tokenizes (`ChatServer.SharedStrtok`), is one whose frame `recv_thread`
saves byte for byte, from the sender, when the frame's chunks keep its
bounds.  What the worker writes into the channel, and what other writers
write in between, is in `ChatServer.NotifyStream`.

A message crosses it the same way: the sender's `process_command` sends a
`/broadcast` or a `/whisper` line, the handler hands the message on, and
`room_broadcast` or `broadcast_message_via_notify` formats the frame
`[sender] message` with `snprintf` into a buffer of `BUF_SIZE` and writes it.
`ChatServer.RoomBroadcast` shows that a line of `BUF_SIZE - 1` bytes makes
that `write` read past what `snprintf` stored; a line the user types is at
most `TI_MAXLINE - 1` characters, and the frame of every message typed is
stored and written whole and shown whole by the recipient's `recv_thread`.
-/

namespace ChatServer.ClientToClient

open ChatServer.Basic ChatServer.FileQueue ChatServer.CommandParsing ChatServer.ClientReceive
open ChatServer.ProcessCommand

/-! ## From the sender's command to the recipient's file -/

/--
The `file_item_t` the `/sendfile` branch of `client_handler` builds from a
dispatched command, in the session of `sender`, with the buffer `buffer`.
-/
def itemOf (sender : List Char) (buffer : Nat) : Dispatch → Option FileItem
  | .sendfile (some filename) (some target) (some size) =>
      some (UploadPipeline.uploadItem filename target sender (strtoul size) buffer)
  | _ => none

/-- The item for a well-formed `/sendfile` carries the file's name, size and target. -/
theorem itemOf_line {filename user payload sender : List Char} (buffer : Nat)
    (wellFormed : (ClientCommand.sendfile filename user payload).WellFormed) :
    itemOf sender buffer (dispatch (ClientCommand.sendfile filename user payload).line) =
      some (UploadPipeline.uploadItem filename user sender payload.length buffer) := by
  have within := wellFormed.2.2.2.2
  rw [dispatch_line _ wellFormed, ClientCommand.expected, itemOf,
    strtoul_toDigits _ (by unfold ulongMax; unfold maxFileSize at within; omega)]

/-- The frame of that item is one `recv_thread` reads. -/
theorem frame_wellFormed {filename user payload sender : List Char} (buffer : Nat)
    (wellFormed : (ClientCommand.sendfile filename user payload).WellFormed)
    (valid : isValidUsername sender = true) :
    (Frame.file (UploadPipeline.uploadItem filename user sender payload.length buffer)
      payload).WellFormed := by
  obtain ⟨-, name, -, positive, within⟩ := wellFormed
  refine ⟨by rwa [UploadPipeline.uploadItem, Directory.take_of_valid valid], fun c member => ?_,
    rfl, positive, within⟩
  have clean := name.2 c (List.mem_of_mem_take member)
  exact ⟨fun space => clean.1 (by rw [space]; decide), clean.2⟩

/--
A file the client sends with `/sendfile`: when its line is dispatched while
no other handler tokenizes, the handler of the session of `sender` builds an
item with the file's name, its size and the target, and when the chunks of
the item's frame keep the frame's bounds, the recipient's `recv_thread`
saves the file's bytes unchanged and shows them as from `sender`.
-/
theorem sent_file_saved_by_recipient {filename user payload sender : List Char}
    (wellFormed : (ClientCommand.sendfile filename user payload).WellFormed)
    (valid : isValidUsername sender = true) (buffer : Nat) :
    ∀ d, SharedStrtok.DispatchesAlone (ClientCommand.sendfile filename user payload).line d →
    ∃ item, itemOf sender buffer d = some item ∧ item.size = payload.length ∧
      item.target = user.take (usernameLen - 1) ∧
      ∀ chunks, (Frame.file item payload).Cut chunks → ∀ r : Receiver, r.receiving = false →
        ∃ r', r.feed chunks = .ok r' ∧ r'.receiving = false ∧
          r'.files = r.files ++ [payload] ∧ r'.shown = r.shown ++ [.saved sender] := by
  intro d dispatched
  rw [dispatched.eq_dispatch]
  refine ⟨_, itemOf_line buffer wellFormed, rfl, rfl, fun chunks cut r waiting => ?_⟩
  obtain ⟨r', fed, done, files, shown⟩ :=
    feed_frame ⟨_, frame_wellFormed buffer wellFormed valid, chunks, cut⟩ r waiting
  refine ⟨r', fed, done, files, ?_⟩
  rw [shown]
  simp [Frame.shown, UploadPipeline.uploadItem, Directory.take_of_valid valid]

theorem sent_file_saved_by_recipient_of_one_byte :
    (ClientCommand.sendfile "a.txt".toList "bob".toList ['x']).WellFormed ∧
      isValidUsername "amy".toList = true ∧
      SharedStrtok.DispatchesAlone (ClientCommand.sendfile "a.txt".toList "bob".toList ['x']).line
        (dispatch (ClientCommand.sendfile "a.txt".toList "bob".toList ['x']).line) ∧
      ∃ item, itemOf "amy".toList 0
          (dispatch (ClientCommand.sendfile "a.txt".toList "bob".toList ['x']).line) = some item ∧
        item.size = 1 ∧ item.target = "bob".toList.take (usernameLen - 1) ∧
        ∀ chunks, (Frame.file item ['x']).Cut chunks → ∀ r : Receiver, r.receiving = false →
          ∃ r', r.feed chunks = .ok r' ∧ r'.receiving = false ∧
            r'.files = r.files ++ [['x']] ∧ r'.shown = r.shown ++ [.saved "amy".toList] :=
  have wellFormed : (ClientCommand.sendfile "a.txt".toList "bob".toList ['x']).WellFormed := by
    decide
  have valid : isValidUsername "amy".toList = true := by decide
  have dispatched := SharedStrtok.dispatchesAlone_of_fits (by decide) wellFormed.1
  ⟨wellFormed, valid, dispatched, sent_file_saved_by_recipient wellFormed valid 0 _ dispatched⟩

/-! ## A typed message from one client to others -/

/--
The frame `[sender] message` is stored whole by `snprintf`, so `write` sends
exactly the frame, and a `recv_thread` between frames shows it as it is.
-/
def FramedWhole (sender message : List Char) : Prop :=
  RoomBroadcast.frameWrite sender message = some (NotifyStream.textFrame sender message) ∧
    ∀ r : Receiver, r.receiving = false →
      r.receive (NotifyStream.textFrame sender message) =
        .ok { r with shown := r.shown ++ [.text (NotifyStream.textFrame sender message)] }

/--
The message the handler of a well-formed command hands on is the command's
own, without NUL and at least 11 characters shorter than its line.
-/
theorem handed_message {c : ClientCommand} (wellFormed : c.WellFormed) {env : Handler.Env}
    {message : List Char} (handed : Handler.HandsOn env (dispatch c.line) message) :
    NoNul message ∧ message.length + 11 ≤ c.line.length := by
  rw [dispatch_line c wellFormed] at handed
  rcases Handler.handleCommand_message handed with same | ⟨target, same⟩ <;> cases c <;>
    simp only [ClientCommand.expected, reduceCtorEq, Dispatch.broadcast.injEq,
      Dispatch.whisper.injEq, Option.some.injEq, false_and] at same
  case inl.broadcast =>
    subst same
    exact ⟨fun c member => (wellFormed.2.2 c member).2, by rw [line_length_broadcast]; omega⟩
  case inr.intro.whisper =>
    obtain ⟨rfl, rfl⟩ := same
    exact ⟨fun c member => (wellFormed.2.2.2 c member).2, by rw [line_length_whisper]; omega⟩

/--
The frame of a message from a valid username, without NUL and at most
`TI_MAXLINE + 9` characters long, is framed whole.
-/
theorem message_frame_whole {sender message : List Char} (valid : isValidUsername sender = true)
    (noNul : NoNul message) (short : message.length ≤ TermInput.tiMaxline + 9) :
    FramedWhole sender message := by
  have name := (isValidName_iff.mp valid).2.1
  have frame := RoomBroadcast.length_textFrame sender message
  unfold usernameLen at name; unfold TermInput.tiMaxline at short
  refine ⟨RoomBroadcast.frameWrite_of_fits (by unfold bufSize; omega),
    fun r waiting => receive_textFrame waiting ⟨valid, noNul, ?_⟩⟩
  unfold clientBufSize; omega

/-- The message a command of a typed line hands on, dispatched alone, is framed whole. -/
theorem command_message_whole {c : ClientCommand} (wellFormed : c.WellFormed)
    (bounded : c.line.length ≤ TermInput.tiMaxline + 20) {sender : List Char}
    (valid : isValidUsername sender = true) (d : Dispatch)
    (dispatched : SharedStrtok.DispatchesAlone c.line d) (env : Handler.Env) (message : List Char)
    (handed : Handler.HandsOn env d message) : FramedWhole sender message :=
  have ⟨noNul, shorter⟩ := handed_message wellFormed (dispatched.eq_dispatch ▸ handed)
  message_frame_whole valid noNul (by omega)

/--
Every message a user types reaches its recipients whole: for every line
typed, the client sends nothing, or a well-formed command line first, and
when the server's handler, dispatching it while no other handler tokenizes,
hands that command's message on as a broadcast or a whisper, the frame
`snprintf` formats is stored whole, `write` sends exactly the frame, and the
recipient's `recv_thread` shows it as it is.  The
read past the buffer of `room_broadcast` needs a line longer than any the
client sends.
-/
theorem typed_messages_framed_whole (self : List Char) (files : Files) {line : List Char}
    (typed : TypedLine line) (valid : isValidUsername self = true) :
    (processCommand self files line).sent = [] ∨
      ∃ c : ClientCommand, c.WellFormed ∧ c.line <+: (processCommand self files line).sent ∧
        ∀ d, SharedStrtok.DispatchesAlone c.line d →
          ∀ env message, Handler.HandsOn env d message → FramedWhole self message := by
  have outcome := processCommand_wellFormed self files typed
  generalize processCommand self files line = o at outcome ⊢
  cases outcome with
  | quiet => exact .inl rfl
  | sends wellFormed bounded =>
      exact .inr ⟨_, wellFormed, List.prefix_append _ _,
        command_message_whole wellFormed bounded valid⟩
  | headerOnly wellFormed bounded =>
      exact .inr ⟨_, wellFormed, List.prefix_refl _,
        command_message_whole wellFormed bounded valid⟩

theorem typed_messages_framed_whole_of_broadcast :
    TypedLine "/broadcast hi".toList ∧ isValidUsername "amy".toList = true ∧
      ((processCommand "amy".toList (fun _ => none) "/broadcast hi".toList).sent = [] ∨
        ∃ c : ClientCommand, c.WellFormed ∧
          c.line <+: (processCommand "amy".toList (fun _ => none) "/broadcast hi".toList).sent ∧
          ∀ d, SharedStrtok.DispatchesAlone c.line d →
            ∀ env message, Handler.HandsOn env d message → FramedWhole "amy".toList message) :=
  have typed : TypedLine "/broadcast hi".toList := ⟨by decide, by decide⟩
  have valid : isValidUsername "amy".toList = true := by decide
  ⟨typed, valid, typed_messages_framed_whole "amy".toList (fun _ => none) typed valid⟩

end ChatServer.ClientToClient
