import ChatServer.FileQueue

/-!
# Writers of one notify stream

Every session has a socketpair whose writing end, `notify_writer`, any
thread may write to: `room_broadcast` and `broadcast_message_via_notify`
write a whole text frame `[from] msg` plus newline in one `write` call, and
`file_upload_worker` writes the header `[FILE name size sender]` plus
newline in one call and then the payload in a loop of calls, each of which
may accept only part of what is left.  None of these writers holds a lock
that the others take.

This module models the stream as the bytes written so far and each writer
by what it still has to write; a step appends what one `write` call
accepts.  The header and the payload of an upload are separate calls, so a
text frame written between them lands between the header and its payload.
-/

namespace ChatServer.NotifyStream

open ChatServer.Basic ChatServer.FileQueue

/-- `snprintf(buf, sizeof buf, "[%s] %s\n", from, msg)`, when it fits in the buffer. -/
def textFrame (sender message : List Char) : List Char :=
  '[' :: sender ++ "] ".toList ++ message ++ ['\n']

/-- The header `file_upload_worker` formats with `"[FILE %s %zu %s]\n"`. -/
def fileHeader (item : FileItem) : List Char :=
  "[FILE ".toList ++ item.filename ++ ' ' :: (toString item.size).toList ++ ' ' :: item.sender ++
    "]\n".toList

/-- What a writer of the stream still has to write. -/
inductive Writer where
  /-- A `room_broadcast` or whisper call holding its formatted frame. -/
  | text (frame : List Char)
  /-- A worker about to write the header of `item`, whose buffer holds `payload`. -/
  | header (item : FileItem) (payload : List Char)
  /-- A worker in its payload loop, with `rest` not yet accepted. -/
  | sending (rest : List Char)
  | done

/-- The bytes written to one session's `notify_writer`, and every writer. -/
structure Channel where
  stream : List Char
  writers : Nat → Writer

/-- One `write` call. -/
inductive Event where
  | text (writer : Nat)
  | header (writer : Nat)
  /-- A payload `write` that accepted `count` bytes. -/
  | chunk (writer : Nat) (count : Nat)
  /-- A payload `write` that returned 0 or an error: the loop breaks. -/
  | failed (writer : Nat)

/--
The effect of one `write` call.  A text frame is written whole; a frame that
does not fit in `BUF_SIZE` would make `write` read past the buffer and is not
a step here.
-/
inductive Step : Channel → Event → Channel → Prop
  | text {c : Channel} (writer : Nat) {frame : List Char} (pending : c.writers writer = .text frame)
      (fits : frame.length < bufSize) :
      Step c (.text writer)
        ⟨c.stream ++ frame, Function.update c.writers writer .done⟩
  | header {c : Channel} (writer : Nat) {item : FileItem} {payload : List Char}
      (pending : c.writers writer = .header item payload) :
      Step c (.header writer)
        ⟨c.stream ++ fileHeader item, Function.update c.writers writer (.sending payload)⟩
  | chunk {c : Channel} (writer count : Nat) {rest : List Char}
      (sending : c.writers writer = .sending rest) (positive : 0 < count)
      (within : count ≤ rest.length) :
      Step c (.chunk writer count)
        ⟨c.stream ++ rest.take count,
          Function.update c.writers writer (.sending (rest.drop count))⟩
  | failed {c : Channel} (writer : Nat) {rest : List Char}
      (sending : c.writers writer = .sending rest) (unsent : rest ≠ []) :
      Step c (.failed writer) ⟨c.stream, Function.update c.writers writer .done⟩

/-- The schedule `events` takes `c` to `c'`. -/
inductive Run (c : Channel) : List Event → Channel → Prop
  | nil : Run c [] c
  | snoc {events : List Event} {c' c'' : Channel} {event : Event} :
      Run c events c' → Step c' event c'' → Run c (events ++ [event]) c''

/-! ## A broadcast between a header and its payload -/

/-- A one-byte upload `f` from `a`. -/
def smallUpload : FileItem :=
  ⟨['f'], 1, some 0, ['a'], ['b'], false⟩

/-- A worker delivering `smallUpload` with payload `x`, and `c` broadcasting `hi`. -/
def twoWriters : Channel :=
  ⟨[], fun writer => if writer = 0 then .header smallUpload ['x']
    else if writer = 1 then .text (textFrame ['c'] ['h', 'i']) else .done⟩

/-- The worker's header, then the broadcast, then the worker's payload. -/
def broadcastInsideFile : List Event :=
  [.header 0, .text 1, .chunk 0 1]

/--
Under `broadcastInsideFile` the stream is the header, the text frame and
then the payload: the byte after the header is not the payload's.
-/
theorem broadcast_splits_file_frame :
    ∃ c, Run twoWriters broadcastInsideFile c ∧
      c.stream = fileHeader smallUpload ++ textFrame ['c'] ['h', 'i'] ++ ['x'] ∧
      (c.stream.drop (fileHeader smallUpload).length).take smallUpload.size ≠ ['x'] := by
  have run := (Run.nil (c := twoWriters)).snoc (Step.header 0 rfl)
  replace run := run.snoc (Step.text 1 rfl (by decide))
  exact ⟨_, run.snoc (Step.chunk 0 1 rfl (by decide) (by decide)), rfl, by decide⟩

end ChatServer.NotifyStream
