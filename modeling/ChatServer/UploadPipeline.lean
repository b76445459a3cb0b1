import ChatServer.FileQueue

/-!
# The upload pipeline and its shutdown

A `/sendfile` upload `malloc`s a payload buffer in its session's
`client_handler`, fills it from the socket and hands it to
`file_queue_enqueue`; one of the `NUM_UPLOAD_WORKERS` `file_upload_worker`
threads dequeues it, writes it to the recipient and frees the buffer.  At
shutdown the supervisor enqueues one sentinel per worker, closes the
sessions and joins the threads; each worker exits at the first sentinel it
dequeues, and the queue itself is never destroyed.

This module models the buffers' life along every interleaving of handlers,
workers and the supervisor: which buffers `malloc` has handed out and how
often each has been passed to `free`.  A worker's lookup of the recipient
and its writes are left out: each of its three outcomes ends in the same
single `free(item.data)`.  An upload that reaches the queue after the
sentinels is dequeued by no worker, so its buffer outlives every thread.
-/

namespace ChatServer.UploadPipeline

open ChatServer.Basic ChatServer.FileQueue

/-- The `file_item_t` a handler builds for an upload held in the buffer `buffer`. -/
def uploadItem (filename target sender : List Char) (size buffer : Nat) : FileItem :=
  ⟨filename.take (maxFilename - 1), size, some buffer, sender.take (usernameLen - 1),
    target.take (usernameLen - 1), false⟩

/-- `file_item_t sentinel = {0}; sentinel.is_sentinel = 1;` -/
def sentinel : FileItem :=
  { FileItem.zero with isSentinel := true }

/-- `free(item.data)`: one more `free` of a non-NULL buffer, nothing for NULL. -/
def freeData (data : Option Nat) (frees : Nat → Nat) : Nat → Nat :=
  match data with
  | some buffer => Function.update frees buffer (frees buffer + 1)
  | none => frees

/-- Where the `client_handler` of a connection slot stands with respect to uploads. -/
inductive HandlerPc where
  /-- No session in this slot yet. -/
  | absent
  /-- Between commands, for the user `username`. -/
  | idle (username : List Char)
  /-- The buffer of `item` is allocated and the payload is being received. -/
  | receiving (username : List Char) (item : FileItem)
  /-- The payload is complete: in `file_queue_enqueue`. -/
  | enqueueing (username : List Char) (item : FileItem)
  /-- The thread has returned. -/
  | finished
  deriving DecidableEq

/-- Where a `file_upload_worker` stands in its loop. -/
inductive WorkerPc where
  /-- In `file_queue_dequeue`. -/
  | waiting
  /-- Holding a dequeued upload, whose buffer it frees next. -/
  | holding (item : FileItem)
  /-- Dequeued a sentinel and returned. -/
  | exited
  deriving DecidableEq

/-- Where the supervisor stands in `main`. -/
inductive SupervisorPc where
  /-- In the `accept` loop. -/
  | serving
  /-- Enqueuing sentinels; `sent` are in the queue. -/
  | stopping (sent : Nat)
  /-- The goodbye/shutdown/close loop over `connections[]` is done. -/
  | closed
  /-- Every upload worker has been joined. -/
  | workersJoined
  /-- Every session thread has been joined: `main` returns. -/
  | finished
  deriving DecidableEq

/-- The upload queue, the buffers `malloc` has handed out and their frees, and every thread. -/
structure Pipeline where
  queue : Queue FileItem
  nextBuffer : Nat
  frees : Nat → Nat
  handlers : Fin maxConn → HandlerPc
  workers : Fin numUploadWorkers → WorkerPc
  supervisor : SupervisorPc

/-- `upload_queue = file_queue_init(ROOM_CAPACITY)`, nothing allocated, no sessions. -/
def Pipeline.initial : Pipeline :=
  ⟨fileQueueInit roomCapacity FileItem.zero, 0, fun _ => 0, fun _ => .absent,
    fun _ => .waiting, .serving⟩

/-- What happens in one atomic step. -/
inductive Event where
  | connect (session : Fin maxConn) (username : List Char)
  /-- `/sendfile filename target size`; `allocated` is whether `malloc` succeeded. -/
  | sendfile (session : Fin maxConn) (filename target : List Char) (size : Nat)
      (allocated : Bool)
  /-- The payload loop ends, with `complete` whether `total == filesize`. -/
  | receive (session : Fin maxConn) (complete : Bool)
  | enqueue (session : Fin maxConn)
  | exit (session : Fin maxConn)
  | dequeue (worker : Fin numUploadWorkers)
  | release (worker : Fin numUploadWorkers)
  | stop
  | sentinel
  | closeSessions
  | joinWorkers
  | joinHandlers
  deriving DecidableEq

/-- The steps of the handlers, the workers and the supervisor. -/
inductive Step : Pipeline → Event → Pipeline → Prop
  /-- The supervisor spawns the handler of a registered session. -/
  | connect {p : Pipeline} (session : Fin maxConn) (username : List Char)
      (serving : p.supervisor = .serving)
      (free : p.handlers session = .absent ∨ p.handlers session = .finished) :
      Step p (.connect session username)
        { p with handlers := Function.update p.handlers session (.idle username) }
  | rejectSize {p : Pipeline} (session : Fin maxConn) (filename target : List Char)
      (size : Nat) (allocated : Bool) {username : List Char}
      (idle : p.handlers session = .idle username) (outOfRange : size = 0 ∨ maxFileSize < size) :
      Step p (.sendfile session filename target size allocated) p
  | mallocFailed {p : Pipeline} (session : Fin maxConn) (filename target : List Char)
      (size : Nat) {username : List Char} (idle : p.handlers session = .idle username)
      (inRange : 0 < size ∧ size ≤ maxFileSize) :
      Step p (.sendfile session filename target size false) p
  | malloc {p : Pipeline} (session : Fin maxConn) (filename target : List Char)
      (size : Nat) {username : List Char} (idle : p.handlers session = .idle username)
      (inRange : 0 < size ∧ size ≤ maxFileSize) :
      Step p (.sendfile session filename target size true)
        { p with
          nextBuffer := p.nextBuffer + 1
          handlers := Function.update p.handlers session
            (.receiving username (uploadItem filename target username size p.nextBuffer)) }
  | received {p : Pipeline} (session : Fin maxConn) {username : List Char} {item : FileItem}
      (receiving : p.handlers session = .receiving username item) :
      Step p (.receive session true)
        { p with handlers := Function.update p.handlers session (.enqueueing username item) }
  /-- A short payload: `free(filedata)` and back to the loop. -/
  | truncated {p : Pipeline} (session : Fin maxConn) {username : List Char} {item : FileItem}
      (receiving : p.handlers session = .receiving username item) :
      Step p (.receive session false)
        { p with
          frees := freeData item.data p.frees
          handlers := Function.update p.handlers session (.idle username) }
  | enqueue {p : Pipeline} (session : Fin maxConn) {username : List Char} {item : FileItem}
      {queue : Queue FileItem} (enqueueing : p.handlers session = .enqueueing username item)
      (stored : fileQueueEnqueue p.queue item = some queue) :
      Step p (.enqueue session)
        { p with queue := queue, handlers := Function.update p.handlers session (.idle username) }
  /-- The session loop ends (`/exit`, end of stream, a closed socket) and the thread returns. -/
  | exit {p : Pipeline} (session : Fin maxConn) {username : List Char}
      (idle : p.handlers session = .idle username) :
      Step p (.exit session) { p with handlers := Function.update p.handlers session .finished }
  | dequeue {p : Pipeline} (worker : Fin numUploadWorkers) {queue : Queue FileItem}
      {item : FileItem} (waiting : p.workers worker = .waiting)
      (taken : fileQueueDequeue p.queue = some (queue, item)) :
      Step p (.dequeue worker)
        { p with
          queue := queue
          workers := Function.update p.workers worker
            (if item.isSentinel then .exited else .holding item) }
  /-- Recipient gone, write failed, or file sent: each path ends in `free(item.data)`. -/
  | release {p : Pipeline} (worker : Fin numUploadWorkers) {item : FileItem}
      (holding : p.workers worker = .holding item) :
      Step p (.release worker)
        { p with
          frees := freeData item.data p.frees
          workers := Function.update p.workers worker .waiting }
  /-- `SIGINT`: the `accept` loop ends. -/
  | stop {p : Pipeline} (serving : p.supervisor = .serving) :
      Step p .stop { p with supervisor := .stopping 0 }
  | sentinel {p : Pipeline} {sent : Nat} {queue : Queue FileItem}
      (stopping : p.supervisor = .stopping sent) (more : sent < numUploadWorkers)
      (stored : fileQueueEnqueue p.queue sentinel = some queue) :
      Step p .sentinel { p with queue := queue, supervisor := .stopping (sent + 1) }
  | closeSessions {p : Pipeline} (allSent : p.supervisor = .stopping numUploadWorkers) :
      Step p .closeSessions { p with supervisor := .closed }
  | joinWorkers {p : Pipeline} (closed : p.supervisor = .closed)
      (exited : ∀ worker, p.workers worker = .exited) :
      Step p .joinWorkers { p with supervisor := .workersJoined }
  | joinHandlers {p : Pipeline} (joined : p.supervisor = .workersJoined)
      (returned : ∀ session, p.handlers session = .absent ∨ p.handlers session = .finished) :
      Step p .joinHandlers { p with supervisor := .finished }

/-- The schedule `events` takes `p` to `p'`. -/
inductive Run (p : Pipeline) : List Event → Pipeline → Prop
  | nil : Run p [] p
  | snoc {events : List Event} {p' p'' : Pipeline} {event : Event} :
      Run p events p' → Step p' event p'' → Run p (events ++ [event]) p''

/-- Every thread has returned: `main`, every worker and every session handler. -/
def Pipeline.AllFinished (p : Pipeline) : Prop :=
  p.supervisor = .finished ∧ (∀ worker, p.workers worker = .exited) ∧
    ∀ session, p.handlers session = .absent ∨ p.handlers session = .finished

/-! ## An upload behind the sentinels -/

/--
Session 0 (user `a`) uploads one byte for `b` after the supervisor has
enqueued its sentinels; each worker dequeues a sentinel and exits, and the
supervisor joins everyone.
-/
def lateUpload : List Event :=
  [.connect 0 ['a'], .stop, .sentinel, .sentinel, .sentinel, .sentinel, .sentinel,
   .sendfile 0 ['f'] ['b'] 1 true, .receive 0 true, .enqueue 0,
   .dequeue 0, .dequeue 1, .dequeue 2, .dequeue 3, .dequeue 4,
   .closeSessions, .exit 0, .joinWorkers, .joinHandlers]

/--
Under `lateUpload` every thread returns while buffer 0, handed out by
`malloc`, has never been freed: it sits in the queue behind the sentinels.
-/
theorem upload_after_sentinels_leaks :
    ∃ p, Run Pipeline.initial lateUpload p ∧ p.AllFinished ∧ p.nextBuffer = 1 ∧
      p.frees 0 = 0 ∧ contents p.queue = [uploadItem ['f'] ['b'] ['a'] 1 0] := by
  have run := (Run.nil (p := Pipeline.initial)).snoc (Step.connect 0 ['a'] rfl (.inl rfl))
  replace run := run.snoc (Step.stop rfl)
  replace run := run.snoc (Step.sentinel rfl (by decide) rfl)
  replace run := run.snoc (Step.sentinel rfl (by decide) rfl)
  replace run := run.snoc (Step.sentinel rfl (by decide) rfl)
  replace run := run.snoc (Step.sentinel rfl (by decide) rfl)
  replace run := run.snoc (Step.sentinel rfl (by decide) rfl)
  replace run := run.snoc (Step.malloc 0 ['f'] ['b'] 1 rfl (by decide))
  replace run := run.snoc (Step.received 0 rfl)
  replace run := run.snoc (Step.enqueue 0 rfl rfl)
  replace run := run.snoc (Step.dequeue 0 rfl rfl)
  replace run := run.snoc (Step.dequeue 1 rfl rfl)
  replace run := run.snoc (Step.dequeue 2 rfl rfl)
  replace run := run.snoc (Step.dequeue 3 rfl rfl)
  replace run := run.snoc (Step.dequeue 4 rfl rfl)
  replace run := run.snoc (Step.closeSessions rfl)
  replace run := run.snoc (Step.exit 0 rfl)
  replace run := run.snoc (Step.joinWorkers rfl (by decide))
  refine ⟨_, run.snoc (Step.joinHandlers rfl fun session => ?_),
    ⟨rfl, by decide, fun session => ?_⟩, rfl, rfl, rfl⟩
  all_goals
    dsimp only [Pipeline.initial]
    simp only [Function.update_idem]
    rcases eq_or_ne session 0 with rfl | other
    · exact .inr (Function.update_same _ _ _)
    · exact .inl (Function.update_noteq other _ _)

end ChatServer.UploadPipeline
