import ChatServer.NotifyStream
import ChatServer.CommandParsing

/-!
# The client's `recv_thread`

The client reads the server's byte stream with `recv` into a buffer of
`BUF_SIZE` bytes, 8192 in `client.h`.  Outside a file transfer it NUL-terminates the chunk and
looks at its start: a chunk beginning with `"[FILE "` is parsed as the header
of a file frame, cut with `strchr` at two spaces and a `]`; the file is
opened and the bytes after `"]\n"` in the same chunk are written to it.  Any
other chunk is shown as chat text.  During a transfer every chunk goes to the
file, at most `file_remain` bytes of it, and the rest of the chunk is not
looked at.

This module models one chunk's handling and the loop over the chunks, with
the files written and what is passed to `ti_draw_message`, against the
frames the server writes (`ChatServer.NotifyStream`).  When the chunks keep
to the frames' bounds, a text frame whole and a header at the start of a
chunk, every file is saved with its payload and every text frame shown
(`recv_thread_reads_aligned_frames`).  The parse reads the chunk, not the
stream: a chunk that holds the end of a payload and the next text frame loses
the text frame, and a header cut across two chunks is shown as text together
with its payload.

`fopen` of the new file is taken to succeed, and the unique local name that
`recv_thread` derives from the header with `basename` and `stat` is left out:
what it names is a file system's state.
-/

namespace ChatServer.ClientReceive

open ChatServer.Basic ChatServer.FileQueue ChatServer.NotifyStream ChatServer.CommandParsing

/-! ## One chunk -/

/-- `BUF_SIZE` of `client.h`: the size of `recv_thread`'s buffer. -/
def clientBufSize : Nat := 8192

/-- `strchr(s, c)`: the bytes before the first `c` and those after it, or `NULL`. -/
def strchr (s : List Char) (c : Char) : Option (List Char × List Char) :=
  if c ∈ s then some (s.takeWhile (· ≠ c), (s.dropWhile (· ≠ c)).drop 1) else none

/-- What `recv_thread` makes of a chunk's text that starts with `"[FILE "`. -/
inductive Header where
  /-- A field separator is missing: `ti_draw_message(buf)` shows `text`. -/
  | malformed (text : List Char)
  /-- The header's fields, and `header_len`, the offset of the byte after `"]\n"`. -/
  | parsed (name : List Char) (size : Nat) (sender : List Char) (length : Nat)
  deriving DecidableEq, Repr

/--
The header parse of `recv_thread`.  Each `strchr` hit is overwritten with
NUL, so once the name is cut the text shown for a malformed header stops
after the name.
-/
def parseHeader (text : List Char) : Header :=
  match strchr (text.drop 6) ' ' with
  | none => .malformed text
  | some (name, afterName) =>
      match strchr afterName ' ' with
      | none => .malformed ("[FILE ".toList ++ name)
      | some (size, afterSize) =>
          match strchr afterSize ']' with
          | none => .malformed ("[FILE ".toList ++ name)
          | some (sender, _) =>
              .parsed name (strtoul size) sender
                (6 + name.length + 1 + size.length + 1 + sender.length + 2)

/-- What `recv_thread` passes to `ti_draw_message` as a server message. -/
inductive Shown where
  /-- A chunk shown as chat text, up to its first NUL. -/
  | text (bytes : List Char)
  /-- `[INFO] Received file '%s' from %s (saved).` once a file is complete. -/
  | saved (sender : List Char)
  deriving DecidableEq, Repr

/-- The static state of `recv_thread`, the files it wrote and what it showed. -/
structure Receiver where
  /-- `receiving_file`. -/
  receiving : Bool
  /-- `file_remain`. -/
  remain : Nat
  /-- `incoming_sender`. -/
  sender : List Char
  /-- The bytes written to the open file. -/
  current : List Char
  /-- The bytes of every file closed so far. -/
  files : List (List Char)
  shown : List Shown
  deriving DecidableEq, Repr

/-- Before the first chunk. -/
def Receiver.initial : Receiver :=
  ⟨false, 0, [], [], [], []⟩

/-- An access out of the bounds of the received bytes. -/
inductive Fault where
  /-- `buf[n] = '\0'` with `n = sizeof(buf)`: a write one past the buffer. -/
  | nulPastBuffer
  /-- The chunk ends at the header's `]`: `fwrite` reads past the received bytes. -/
  | readPastChunk
  deriving DecidableEq, Repr

/--
`fwrite` of `bytes` to the open file and `file_remain -= to_write`; at zero
the file is closed and the `[INFO]` line shown.
-/
def Receiver.write (r : Receiver) (bytes : List Char) : Receiver :=
  if r.remain - bytes.length = 0 then
    { r with
      receiving := false, remain := 0, current := [], files := r.files ++ [r.current ++ bytes],
      shown := r.shown ++ [.saved r.sender] }
  else { r with remain := r.remain - bytes.length, current := r.current ++ bytes }

/--
A parsed header: the file is opened, and the bytes of the chunk after
`"]\n"` are written to it, at most `size` of them.  `data_len = n -
header_len` is a `size_t`: when the chunk ends at `]` it wraps around, and
`fwrite` reads `size` bytes from past the chunk.
-/
def Receiver.openFile (r : Receiver) (chunk : List Char) (size : Nat) (sender : List Char)
    (length : Nat) : Except Fault Receiver :=
  let opened :=
    { r with
      receiving := true, remain := size, sender := sender.take (usernameLen - 1), current := [] }
  if chunk.length < length then
    if size = 0 then .ok (opened.write []) else .error .readPastChunk
  else if chunk.length = length then .ok opened
  else .ok (opened.write ((chunk.drop length).take size))

/-- One pass of `recv_thread`'s loop over a chunk `recv` returned. -/
def Receiver.receive (r : Receiver) (chunk : List Char) : Except Fault Receiver :=
  if r.receiving then .ok (r.write (chunk.take r.remain))
  else if chunk.length = clientBufSize then .error .nulPastBuffer
  else
    let text := chunk.takeWhile (· ≠ Char.ofNat 0)
    if "[FILE ".toList.isPrefixOf text then
      match parseHeader text with
      | .malformed shown => .ok { r with shown := r.shown ++ [.text shown] }
      | .parsed _ size sender length => r.openFile chunk size sender length
    else .ok { r with shown := r.shown ++ [.text text] }

/-- `recv_thread` over a sequence of chunks. -/
def Receiver.feed (r : Receiver) : List (List Char) → Except Fault Receiver
  | [] => .ok r
  | chunk :: chunks => (r.receive chunk).bind fun r' => r'.feed chunks

/-! ## The header parse and the file writes -/

theorem strchr_append {a b : List Char} {c : Char} (absent : c ∉ a) :
    strchr (a ++ c :: b) c = some (a, b) := by
  have kept : ∀ x ∈ a, decide (x ≠ c) = true := fun x member =>
    decide_eq_true fun same => absent (same ▸ member)
  rw [strchr, if_pos (List.mem_append_right _ (List.mem_cons_self _ _)),
    List.takeWhile_append_of_pos kept, List.dropWhile_append_of_pos kept]
  simp

theorem toList_toString (n : Nat) : (toString n).toList = Nat.toDigits 10 n :=
  rfl

/-- An alphanumeric byte is none of the separators `recv_thread` cuts at. -/
theorem separators_of_isAlphanum {c : Char} (alnum : c.isAlphanum = true) :
    c ≠ ' ' ∧ c ≠ ']' ∧ c ≠ Char.ofNat 0 := by
  refine ⟨?_, ?_, ?_⟩ <;> (rintro rfl; exact absurd alnum (by decide))

theorem noNul_of_isAlphanum {s : List Char} (alnum : ∀ c ∈ s, c.isAlphanum = true) : NoNul s :=
  fun c member => (separators_of_isAlphanum (alnum c member)).2.2


/-- The header `file_upload_worker` formats, field by field. -/
theorem fileHeader_eq (item : FileItem) :
    fileHeader item = "[FILE ".toList ++ (item.filename ++ ' ' ::
      (Nat.toDigits 10 item.size ++ ' ' :: (item.sender ++ [']']))) ++ ['\n'] := by
  simp only [fileHeader, toList_toString, List.append_assoc, List.cons_append]
  rfl

/-- A header's fields are read back whatever follows its `]`. -/
theorem parseHeader_fields {item : FileItem} (name : ∀ c ∈ item.filename, c ≠ ' ')
    (sender : ∀ c ∈ item.sender, c.isAlphanum = true) (small : item.size ≤ ulongMax)
    (tail : List Char) :
    parseHeader ("[FILE ".toList ++ (item.filename ++ ' ' ::
        (Nat.toDigits 10 item.size ++ ' ' :: (item.sender ++ ']' :: tail)))) =
      .parsed item.filename item.size item.sender
        (6 + item.filename.length + 1 + (Nat.toDigits 10 item.size).length + 1 +
          item.sender.length + 2) := by
  have noSpace : ' ' ∉ Nat.toDigits 10 item.size := fun member =>
    ((token_toDigits item.size).2 ' ' member).1 (by decide)
  rw [parseHeader, List.drop_left' (show "[FILE ".toList.length = 6 from rfl)]
  simp only [strchr_append fun member => name ' ' member rfl, strchr_append noSpace,
    strchr_append fun member => (separators_of_isAlphanum (sender ']' member)).2.1 rfl,
    strtoul_toDigits _ small]

/-- The header a worker formats for a name without spaces and an alphanumeric sender. -/
theorem parseHeader_fileHeader {item : FileItem} (name : ∀ c ∈ item.filename, c ≠ ' ')
    (sender : ∀ c ∈ item.sender, c.isAlphanum = true) (small : item.size ≤ ulongMax)
    (rest : List Char) :
    parseHeader (fileHeader item ++ rest) =
      .parsed item.filename item.size item.sender (fileHeader item).length := by
  have shape : fileHeader item ++ rest = "[FILE ".toList ++ (item.filename ++ ' ' ::
      (Nat.toDigits 10 item.size ++ ' ' :: (item.sender ++ ']' :: '\n' :: rest))) := by
    simp only [fileHeader_eq, List.append_assoc, List.cons_append, List.nil_append]
  rw [shape, parseHeader_fields name sender small, fileHeader_eq]
  congr 1
  simp only [List.length_append, List.length_cons, List.length_singleton, List.length_nil,
    show "[FILE ".toList.length = 6 from rfl]
  omega

/-- A header has no NUL when its file name has none and its sender is alphanumeric. -/
theorem noNul_fileHeader {item : FileItem} (name : ∀ c ∈ item.filename, c ≠ Char.ofNat 0)
    (sender : ∀ c ∈ item.sender, c.isAlphanum = true) : NoNul (fileHeader item) :=
  ((((show NoNul "[FILE ".toList by decide).append name).append
    (token_toDigits item.size).noNul.space).append (noNul_of_isAlphanum sender).space).append
    (by decide)

/-- A text frame from an alphanumeric sender never starts like a file header. -/
theorem not_header_textFrame {sender message : List Char}
    (alnum : ∀ c ∈ sender, c.isAlphanum = true) :
    "[FILE ".toList.isPrefixOf (textFrame sender message) = false := by
  have shape : textFrame sender message = '[' :: (sender ++ ']' :: ' ' :: (message ++ ['\n'])) := by
    simp only [textFrame, List.cons_append, List.append_assoc]
    rfl
  refine Bool.eq_false_iff.mpr fun header => ?_
  rw [List.isPrefixOf_iff_prefix, List.prefix_iff_eq_take, shape] at header
  have key : "FILE ".toList = (sender ++ ']' :: ' ' :: (message ++ ['\n'])).take 5 :=
    (List.cons.inj header).2
  rcases Nat.lt_or_ge sender.length 5 with short | long
  · obtain ⟨k, rest⟩ : ∃ k, 5 - sender.length = k + 1 := ⟨4 - sender.length, by omega⟩
    rw [List.take_append_eq_append_take, List.take_of_length_le short.le, rest,
      List.take_succ_cons] at key
    have bracket : ']' ∈ "FILE ".toList := by rw [key]; simp
    exact absurd bracket (by decide)
  · rw [List.take_append_of_le_length long] at key
    have space : ' ' ∈ sender := List.mem_of_mem_take (key ▸ (by decide : ' ' ∈ "FILE ".toList))
    exact (separators_of_isAlphanum (alnum ' ' space)).1 rfl


theorem feed_cons_of_receive {r r' : Receiver} {chunk : List Char} (chunks : List (List Char))
    (received : r.receive chunk = .ok r') : r.feed (chunk :: chunks) = r'.feed chunks := by
  rw [Receiver.feed, received]
  rfl

theorem feed_append (r : Receiver) (chunks more : List (List Char)) :
    r.feed (chunks ++ more) = (r.feed chunks).bind (·.feed more) := by
  induction chunks generalizing r with
  | nil => rfl
  | cons chunk chunks ih =>
      simp only [List.cons_append, Receiver.feed]
      cases r.receive chunk with
      | error fault => rfl
      | ok r' => exact ih r'

section Write

variable {r : Receiver} {bytes : List Char}

theorem write_of_lt (short : bytes.length < r.remain) :
    r.write bytes = { r with remain := r.remain - bytes.length, current := r.current ++ bytes } :=
  if_neg (by omega)

theorem write_of_eq (exact : bytes.length = r.remain) :
    r.write bytes = { r with
      receiving := false, remain := 0, current := [], files := r.files ++ [r.current ++ bytes],
      shown := r.shown ++ [.saved r.sender] } :=
  if_pos (by omega)

theorem write_append (more : List Char) (short : bytes.length < r.remain) :
    (r.write bytes).write more = r.write (bytes ++ more) := by
  rw [write_of_lt short]
  simp only [Receiver.write, List.length_append, Nat.sub_sub, List.append_assoc]

end Write

/--
Once a file is open, `recv_thread` writes the chunks to it however the payload
is cut, and closes it with the last byte.  Only the first piece may be empty:
after the file is closed an empty chunk would be read as text.
-/
theorem feed_receiving (pieces : List (List Char)) (r : Receiver) (receiving : r.receiving = true)
    (positive : 0 < r.remain) (exact : pieces.flatten.length = r.remain)
    (nonempty : ∀ piece ∈ pieces.tail, piece ≠ []) :
    r.feed pieces = .ok (r.write pieces.flatten) := by
  induction pieces generalizing r with
  | nil => simp at exact; omega
  | cons piece rest ih =>
      simp only [List.flatten_cons, List.length_append] at exact
      rw [feed_cons_of_receive rest (by rw [Receiver.receive, if_pos receiving,
        List.take_of_length_le (by omega)])]
      rcases rest with _ | ⟨next, others⟩
      · simp [Receiver.feed]
      · have started := List.length_pos.mpr (nonempty next (List.mem_cons_self _ _))
        simp only [List.flatten_cons, List.length_append] at exact
        have short : piece.length < r.remain := by omega
        rw [ih (r.write piece) (by rw [write_of_lt short]; exact receiving)
            (by rw [write_of_lt short]; dsimp only; omega)
            (by rw [write_of_lt short, List.flatten_cons, List.length_append]; dsimp only; omega)
            (fun other member => nonempty other (List.mem_cons_of_mem _ member)),
          write_append _ short]
        rfl

/-! ## Frames cut into chunks -/

/-- A frame the server writes to a client: a text frame, or a file header and its payload. -/
inductive Frame where
  | text (sender message : List Char)
  | file (item : FileItem) (payload : List Char)

/-- The bytes of a frame on the client's stream. -/
def Frame.bytes : Frame → List Char
  | .text sender message => textFrame sender message
  | .file item payload => fileHeader item ++ payload

/-- Chunks `recv` can return into `buf`: 1 to `BUF_SIZE` bytes each. -/
def Chunked (chunks : List (List Char)) : Prop :=
  ∀ chunk ∈ chunks, 0 < chunk.length ∧ chunk.length ≤ clientBufSize

instance : DecidablePred Chunked := fun chunks =>
  inferInstanceAs (Decidable (∀ chunk ∈ chunks, 0 < chunk.length ∧ chunk.length ≤ clientBufSize))

/-! ## Frames that arrive whole -/

/--
The frames the server writes: the sender a valid username, a text frame
without NUL that fits the client's buffer, a file name without space or NUL,
and a payload of the header's size, 1 byte to 3 MiB.
-/
def Frame.WellFormed : Frame → Prop
  | .text sender message =>
      isValidUsername sender = true ∧ NoNul message ∧
        (textFrame sender message).length < clientBufSize
  | .file item payload =>
      isValidUsername item.sender = true ∧ (∀ c ∈ item.filename, c ≠ ' ' ∧ c ≠ Char.ofNat 0) ∧
        item.size = payload.length ∧ 0 < item.size ∧ item.size ≤ maxFileSize

instance : DecidablePred Frame.WellFormed
  | .text sender message =>
      inferInstanceAs (Decidable (_ ∧ NoNul message ∧ (textFrame sender message).length < _))
  | .file item payload =>
      inferInstanceAs (Decidable (_ ∧ (∀ c ∈ item.filename, c ≠ ' ' ∧ c ≠ Char.ofNat 0) ∧
        item.size = payload.length ∧ 0 < item.size ∧ item.size ≤ maxFileSize))

/--
Chunks that keep a frame's bounds: a text frame arrives as one chunk; a file
frame's header starts a chunk that fits the buffer, with the payload's first
bytes, and the rest of the payload follows in non-empty chunks.
-/
def Frame.Cut : Frame → List (List Char) → Prop
  | .text sender message, chunks => chunks = [textFrame sender message]
  | .file _ _, [] => False
  | .file item payload, chunk :: rest =>
      chunk.length < clientBufSize ∧ (∀ piece ∈ rest, piece ≠ []) ∧
        (fileHeader item).isPrefixOf chunk ∧
        chunk.drop (fileHeader item).length ++ rest.flatten = payload

/-- The file a frame carries. -/
def Frame.payload : Frame → Option (List Char)
  | .text .. => none
  | .file _ payload => some payload

/-- What `recv_thread` is to show for a frame. -/
def Frame.shown : Frame → Shown
  | .text sender message => .text (textFrame sender message)
  | .file item _ => .saved item.sender

/-- A frame and the chunks `recv` returns for it. -/
structure Delivered where
  frame : Frame
  wellFormed : frame.WellFormed
  chunks : List (List Char)
  cut : frame.Cut chunks

/-- The chunks of a delivered frame are a partition of the frame's bytes. -/
theorem Delivered.flatten_chunks (d : Delivered) : d.chunks.flatten = d.frame.bytes := by
  obtain ⟨frame, -, chunks, cut⟩ := d
  show chunks.flatten = frame.bytes
  cases frame with
  | text sender message =>
      obtain rfl : chunks = [textFrame sender message] := cut
      simp [Frame.bytes]
  | file item payload =>
      obtain _ | ⟨chunk, rest⟩ := chunks
      · exact cut.elim
      obtain ⟨-, -, header, bytes⟩ := cut
      rw [Frame.bytes, ← bytes, ← List.append_assoc,
        List.prefix_iff_eq_append.mp (List.isPrefixOf_iff_prefix.mp header)]
      rfl

theorem takeWhile_noNul {s : List Char} (rest : List Char) (noNul : NoNul s) :
    (s ++ rest).takeWhile (· ≠ Char.ofNat 0) = s ++ rest.takeWhile (· ≠ Char.ofNat 0) :=
  List.takeWhile_append_of_pos fun c member => decide_eq_true (noNul c member)

/-- A text frame from a valid username is shown as it is. -/
theorem receive_textFrame {r : Receiver} (waiting : r.receiving = false)
    {sender message : List Char}
    (wellFormed : (Frame.text sender message).WellFormed) :
    r.receive (textFrame sender message) =
      .ok { r with shown := r.shown ++ [.text (textFrame sender message)] } := by
  obtain ⟨user, noNul, short⟩ := wellFormed
  have alnum := (isValidName_iff.mp user).2.2
  have whole : NoNul (textFrame sender message) :=
    List.forall_mem_cons.mpr ⟨by decide, (((noNul_of_isAlphanum alnum).append (by decide)).append
      noNul).append (by decide)⟩
  have text := List.takeWhile_eq_self_iff.mpr fun c member => decide_eq_true (whole c member)
  simp only [Receiver.receive, waiting, Bool.false_eq_true, if_false, if_neg short.ne, text,
    not_header_textFrame alnum]

/--
A header at the start of a chunk opens the file and hands the bytes after it
to the file, as the next chunk of the transfer would be.
-/
theorem receive_fileHeader {r : Receiver} (waiting : r.receiving = false) {item : FileItem}
    {payload : List Char} (wellFormed : (Frame.file item payload).WellFormed) {first : List Char}
    (short : (fileHeader item ++ first).length < clientBufSize) :
    r.receive (fileHeader item ++ first) = Receiver.receive
      { r with receiving := true, remain := item.size, sender := item.sender, current := [] }
      first := by
  obtain ⟨user, name, -, positive, bounded⟩ := wellFormed
  obtain ⟨-, fits, alnum⟩ := isValidName_iff.mp user
  have noNul := noNul_fileHeader (fun c member => (name c member).2) alnum
  have header : "[FILE ".toList.isPrefixOf
      (fileHeader item ++ first.takeWhile (· ≠ Char.ofNat 0)) = true := by
    simp only [fileHeader, List.append_assoc]
    exact List.isPrefixOf_iff_prefix.mpr (List.prefix_append _ _)
  simp only [Receiver.receive, waiting, Bool.false_eq_true, if_false, if_neg short.ne,
    takeWhile_noNul first noNul, header, if_true,
    parseHeader_fileHeader (fun c member => (name c member).1) alnum
      (by unfold ulongMax; unfold maxFileSize at bounded; omega),
    Receiver.openFile, List.take_of_length_le (show item.sender.length ≤ usernameLen - 1 by omega),
    if_neg (show ¬(fileHeader item ++ first).length < (fileHeader item).length by simp),
    List.drop_left]
  split
  case isTrue whole =>
    obtain rfl : first = [] := List.eq_nil_of_length_eq_zero (by simpa using whole)
    simp [Receiver.write, positive.ne']
  case isFalse => rfl


/-- A frame whose chunks keep its bounds is shown, or its file saved, and no file stays open. -/
theorem feed_frame (d : Delivered) (r : Receiver) (waiting : r.receiving = false) :
    ∃ r', r.feed d.chunks = .ok r' ∧ r'.receiving = false ∧
      r'.files = r.files ++ d.frame.payload.toList ∧ r'.shown = r.shown ++ [d.frame.shown] := by
  obtain ⟨frame, wellFormed, chunks, cut⟩ := d
  cases frame with
  | text sender message =>
      subst cut
      exact ⟨_, feed_cons_of_receive [] (receive_textFrame waiting wellFormed), waiting,
        by simp [Frame.payload], rfl⟩
  | file item payload =>
      obtain _ | ⟨chunk, rest⟩ := chunks
      · exact cut.elim
      obtain ⟨short, nonempty, header, bytes⟩ := cut
      have split := List.prefix_iff_eq_append.mp (List.isPrefixOf_iff_prefix.mp header)
      rw [← split] at short
      have exact : ((chunk.drop (fileHeader item).length) :: rest).flatten.length = item.size := by
        rw [List.flatten_cons, bytes, wellFormed.2.2.1]
      have fed := feed_receiving _ { r with
        receiving := true, remain := item.size, sender := item.sender, current := [] } rfl
        wellFormed.2.2.2.1 exact nonempty
      rw [List.flatten_cons, bytes, write_of_eq (by rw [← bytes, ← List.flatten_cons]; exact exact),
        Receiver.feed, ← receive_fileHeader waiting wellFormed short, split, ← Receiver.feed] at fed
      exact ⟨_, fed, rfl, by simp [Frame.payload], rfl⟩


/-- Frames one after another: each is shown or saved in turn. -/
theorem feed_frames (delivered : List Delivered) (r : Receiver) (waiting : r.receiving = false) :
    ∃ r', r.feed (delivered.flatMap Delivered.chunks) = .ok r' ∧ r'.receiving = false ∧
      r'.files = r.files ++ delivered.filterMap (·.frame.payload) ∧
      r'.shown = r.shown ++ delivered.map (·.frame.shown) := by
  induction delivered generalizing r with
  | nil => exact ⟨r, rfl, waiting, by simp, by simp⟩
  | cons d rest ih =>
      obtain ⟨next, fed, waitingNext, files, shown⟩ := feed_frame d r waiting
      obtain ⟨last, fedRest, waitingLast, filesRest, shownRest⟩ := ih next waitingNext
      refine ⟨last, by rw [List.flatMap_cons, feed_append, fed]; exact fedRest, waitingLast, ?_, ?_⟩
      · rw [filesRest, files, List.filterMap_cons]
        cases d.frame.payload <;> simp
      · simp [shownRest, shown]

/--
When `recv` returns each text frame whole and each file header at the start
of a chunk, however the payloads are cut, `recv_thread` saves every file with
its payload's bytes, shows the text frames and the files' `[INFO]` lines in
order, and ends outside a transfer.
-/
theorem recv_thread_reads_aligned_frames (delivered : List Delivered) :
    ∃ r, Receiver.initial.feed (delivered.flatMap Delivered.chunks) = .ok r ∧
      r.receiving = false ∧ r.files = delivered.filterMap (·.frame.payload) ∧
      r.shown = delivered.map (·.frame.shown) := by
  simpa [Receiver.initial] using feed_frames delivered Receiver.initial rfl

example : Receiver.initial.feed [fileHeader smallUpload ++ ['x'], textFrame ['a'] ['h', 'i']] =
    .ok ⟨false, 0, ['a'], [], [['x']], [.saved ['a'], .text (textFrame ['a'] ['h', 'i'])]⟩ := rfl

/-! ## Frames cut across chunks -/

/-- The upload `smallUpload` (`x` from `a`), then the text frame `[a] hi`. -/
def fileThenText : List Frame :=
  [.file smallUpload ['x'], .text ['a'] ['h', 'i']]

/-- The header alone, then the payload byte and the text frame in one chunk. -/
def payloadWithText : List (List Char) :=
  [fileHeader smallUpload, 'x' :: textFrame ['a'] ['h', 'i']]

/-- The header cut before its `]`, then the rest of the header with the payload. -/
def headerSplit : List (List Char) :=
  ["[FILE f 1 a".toList, "]\nx".toList]

/--
Both chunkings cut the stream of `smallUpload`'s frame (and, for the first,
the text frame after it).  Under `payloadWithText` the file gets its byte
but the text frame is never shown; under `headerSplit` no file is created
and the header's start, its end and the payload are shown as chat text.
-/
theorem recv_thread_misframes :
    (payloadWithText.flatten = fileThenText.flatMap Frame.bytes ∧ Chunked payloadWithText ∧
      Receiver.initial.feed payloadWithText =
        .ok ⟨false, 0, ['a'], [], [['x']], [.saved ['a']]⟩) ∧
    (headerSplit.flatten = (Frame.file smallUpload ['x']).bytes ∧ Chunked headerSplit ∧
      Receiver.initial.feed headerSplit =
        .ok ⟨false, 0, [], [], [], [.text "[FILE f".toList, .text "]\nx".toList]⟩) :=
  ⟨⟨rfl, by decide, rfl⟩, ⟨rfl, by decide, rfl⟩⟩

/-! ## Accesses outside the buffer -/

/--
Two kinds of chunk take `recv_thread` out of its buffer or out of the bytes
it received, whatever else they hold.  A chunk of `BUF_SIZE` bytes outside a
transfer has its NUL stored at `buf[BUF_SIZE]`, one past `buf`.  A header
chunk that ends at the header's `]` makes `data_len = n - header_len` wrap
around, and `fwrite` then reads the file's bytes from past the chunk.
-/
theorem recv_thread_overruns_buffer (r : Receiver) (waiting : r.receiving = false)
    (full : List Char) (filled : full.length = clientBufSize) (item : FileItem)
    (payload : List Char) (wellFormed : (Frame.file item payload).WellFormed)
    (fits : (fileHeader item).length ≤ clientBufSize) :
    r.receive full = .error .nulPastBuffer ∧
      r.receive (fileHeader item).dropLast = .error .readPastChunk := by
  refine ⟨by rw [Receiver.receive, if_neg (by simp [waiting]), if_pos filled], ?_⟩
  obtain ⟨user, name, -, positive, bounded⟩ := wellFormed
  obtain ⟨-, -, alnum⟩ := isValidName_iff.mp user
  have cut : (fileHeader item).dropLast = "[FILE ".toList ++ (item.filename ++ ' ' ::
      (Nat.toDigits 10 item.size ++ ' ' :: (item.sender ++ ']' :: []))) := by
    rw [fileHeader_eq, List.dropLast_concat]
  have noNul : NoNul (fileHeader item).dropLast := fun c member =>
    noNul_fileHeader (fun c member => (name c member).2) alnum c (List.mem_of_mem_dropLast member)
  have short : (fileHeader item).dropLast.length < clientBufSize := by
    rw [List.length_dropLast]
    have : 0 < (fileHeader item).length := by simp [fileHeader_eq]
    omega
  have header : "[FILE ".toList.isPrefixOf (fileHeader item).dropLast = true := by
    rw [cut]
    exact List.isPrefixOf_iff_prefix.mpr (List.prefix_append _ _)
  simp only [Receiver.receive, waiting, Bool.false_eq_true, if_false, if_neg short.ne,
    List.takeWhile_eq_self_iff.mpr fun c member => decide_eq_true (noNul c member), header,
    if_true]
  rw [cut, parseHeader_fields (fun c member => (name c member).1) alnum
    (by unfold ulongMax; unfold maxFileSize at bounded; omega)]
  simp only [Receiver.openFile, List.length_append, List.length_cons, List.length_nil,
    show "[FILE ".toList.length = 6 from rfl]
  rw [if_pos (by omega), if_neg positive.ne']

theorem recv_thread_overruns_at_smallUpload :
    Receiver.initial.receiving = false ∧
      (List.replicate clientBufSize 'a').length = clientBufSize ∧
      (Frame.file smallUpload ['x']).WellFormed ∧
      (fileHeader smallUpload).length ≤ clientBufSize ∧
      (Receiver.initial.receive (List.replicate clientBufSize 'a') = .error .nulPastBuffer ∧
        Receiver.initial.receive (fileHeader smallUpload).dropLast = .error .readPastChunk) :=
  ⟨rfl, List.length_replicate _ _, by decide, by decide,
    recv_thread_overruns_buffer _ rfl _ (List.length_replicate _ _) smallUpload ['x'] (by decide)
      (by decide)⟩

end ChatServer.ClientReceive
