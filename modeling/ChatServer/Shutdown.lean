import ChatServer.Directory

/-!
# Shutdown against session teardown

After its `accept` loop ends, `main` walks `connections[]` without taking
`conn_mutex`: for every non-NULL slot it sends a goodbye, then shuts down and
closes the session's `sockfd`, `notify_fd` and `notify_writer`, reading
`connections[i]` afresh in each statement; then it joins the threads.  A
session's `client_handler` that wakes on its closed socket runs its own
teardown: it closes the same three descriptors through its own record and
calls `remove_connection`, which frees the record and clears the slot.

This module models the two loops of `main` after the sentinels and the
handlers' teardowns as steps over the directory of `ChatServer.Directory`,
with a count of `close` calls per descriptor number and the supervisor's
reads through a slot that is NULL or whose record is freed.  Both
descriptors' owners close them: a session alive at shutdown has each of its
descriptors closed twice, and a teardown that completes between the
supervisor's test of a slot and its next read leaves the supervisor reading
through a cleared slot.
-/

namespace ChatServer.Shutdown

open ChatServer.Basic ChatServer.Directory

/-- A read of `connections[i]->field` that does not reach a live record. -/
inductive Fault where
  /-- `connections[i]` was NULL. -/
  | nullSlot (index : Fin maxConn)
  /-- `connections[i]` pointed to a freed record. -/
  | freedRecord (index : Fin maxConn)
  deriving DecidableEq, Repr

/-- The statements of the close loop's body, each reading `connections[i]` again. -/
inductive CloseStage where
  | test
  | bye
  | sock
  | notify
  | writer
  deriving DecidableEq, Repr

/-- Where `main` stands after the sentinels. -/
inductive SupervisorPc where
  | closeLoop (i : Nat) (stage : CloseStage)
  | joinLoop (i : Nat)
  /-- In `pthread_join` on the handler of `record`. -/
  | joining (i : Nat) (record : ConnPtr)
  | finished
  /-- A read through a slot faulted. -/
  | crashed (fault : Fault)
  deriving DecidableEq, Repr

/-- Where a session's `client_handler` stands in its teardown. -/
inductive HandlerPc where
  /-- In its `select` loop. -/
  | serving
  | closingSock
  | closingNotify
  | closingWriter
  /-- About to call `remove_connection(removed_user)`. -/
  | removing
  | exited
  deriving DecidableEq, Repr

/-- The directory, `main`, every session's handler and the `close` calls per descriptor. -/
structure ShutdownState where
  table : ConnTable
  supervisor : SupervisorPc
  handlers : ConnPtr → HandlerPc
  closes : Nat → Nat

/-- The state when the close loop starts: every live record's handler is serving. -/
def ShutdownState.start (table : ConnTable) : ShutdownState :=
  ⟨table, .closeLoop 0 .test, fun p => if (table.heap p).isSome then .serving else .exited,
    fun _ => 0⟩

/-- `close(fd)`. -/
def closeFd (fd : Nat) (closes : Nat → Nat) : Nat → Nat :=
  Function.update closes fd (closes fd + 1)

/-- `connections[index]->...` read without `conn_mutex`. -/
def readSlot (table : ConnTable) (index : Fin maxConn) : Except Fault Connection :=
  match table.connections index with
  | none => .error (.nullSlot index)
  | some p =>
      match table.heap p with
      | none => .error (.freedRecord index)
      | some r => .ok r

/-- The slot after `index` in the close loop, or the join loop once the slots run out. -/
def nextClose (i : Nat) : SupervisorPc :=
  if i + 1 < maxConn then .closeLoop (i + 1) .test else .joinLoop 0

/-- A statement that reads `connections[index]`: go on with the record, or fault. -/
def ShutdownState.throughSlot (s : ShutdownState) (index : Fin maxConn)
    (next : Connection → ShutdownState) : ShutdownState :=
  match readSlot s.table index with
  | .error fault => { s with supervisor := .crashed fault }
  | .ok r => next r

/--
One statement of the close loop at slot `index`: the test, the goodbye, and
the shutdown and close of each descriptor.
-/
def closeStatement (s : ShutdownState) (i : Nat) (index : Fin maxConn) :
    CloseStage → ShutdownState
  | .test =>
      if (s.table.connections index).isSome then { s with supervisor := .closeLoop i .bye }
      else { s with supervisor := nextClose i }
  | .bye => s.throughSlot index fun _ => { s with supervisor := .closeLoop i .sock }
  | .sock => s.throughSlot index fun r =>
      { s with closes := closeFd r.sockfd s.closes, supervisor := .closeLoop i .notify }
  | .notify => s.throughSlot index fun r =>
      { s with closes := closeFd r.notifyFd s.closes, supervisor := .closeLoop i .writer }
  | .writer => s.throughSlot index fun r =>
      { s with closes := closeFd r.notifyWriter s.closes, supervisor := nextClose i }

/-- The next step of `main`; `none` while it waits in `pthread_join` or has stopped. -/
def supervise (s : ShutdownState) : Option ShutdownState :=
  match s.supervisor with
  | .closeLoop i stage =>
      if bound : i < maxConn then some (closeStatement s i ⟨i, bound⟩ stage)
      else some { s with supervisor := .joinLoop 0 }
  | .joinLoop i =>
      if bound : i < maxConn then
        match s.table.connections ⟨i, bound⟩ with
        | none => some { s with supervisor := .joinLoop (i + 1) }
        | some p =>
            match s.table.heap p with
            | none => some { s with supervisor := .crashed (.freedRecord ⟨i, bound⟩) }
            | some _ => some { s with supervisor := .joining i p }
      else some { s with supervisor := .finished }
  | .joining i p =>
      if s.handlers p = .exited then some { s with supervisor := .joinLoop (i + 1) } else none
  | _ => none

/--
The next step of the handler of `record`: its loop may end at any time (the
client left, or `main` closed its socket); then it closes its three
descriptors through its own record and removes itself.
-/
def teardown (record : ConnPtr) (s : ShutdownState) : Option ShutdownState :=
  let moveTo (pc : HandlerPc) (s : ShutdownState) : ShutdownState :=
    { s with handlers := Function.update s.handlers record pc }
  match s.handlers record, s.table.heap record with
  | .serving, _ => some (moveTo .closingSock s)
  | .closingSock, some r =>
      some (moveTo .closingNotify { s with closes := closeFd r.sockfd s.closes })
  | .closingNotify, some r =>
      some (moveTo .closingWriter { s with closes := closeFd r.notifyFd s.closes })
  | .closingWriter, some r =>
      some (moveTo .removing { s with closes := closeFd r.notifyWriter s.closes })
  | .removing, some r =>
      (removeConnection r.username s.table).map fun table =>
        moveTo .exited { s with table := table }
  | _, _ => none

/-- One step of the schedule: `main`, or the handler of a record. -/
inductive Event where
  | supervisor
  | handler (record : ConnPtr)
  deriving DecidableEq, Repr

/-- The state after one event, when that thread can move. -/
def ShutdownState.apply (s : ShutdownState) : Event → Option ShutdownState
  | .supervisor => supervise s
  | .handler record => teardown record s

/-- The schedule `events` takes `s` to `s'`. -/
inductive Run (s : ShutdownState) : List Event → ShutdownState → Prop
  | nil : Run s [] s
  | snoc {events : List Event} {s' s'' : ShutdownState} (event : Event) :
      Run s events s' → s'.apply event = some s'' → Run s (events ++ [event]) s''

/-- A handler at `remove_connection` whose name is found frees its record and returns. -/
theorem apply_handler_removing {record : ConnPtr} {s : ShutdownState} {r : Connection}
    {table : ConnTable} (removing : s.handlers record = .removing)
    (live : s.table.heap record = some r)
    (removed : removeConnection r.username s.table = some table) :
    s.apply (.handler record) =
      some { s with table := table, handlers := Function.update s.handlers record .exited } := by
  simp [ShutdownState.apply, teardown, removing, live, removed]

/-! ## What a step does to the directory -/

theorem closeStatement_table (s : ShutdownState) (i : Nat) (index : Fin maxConn)
    (stage : CloseStage) : (closeStatement s i index stage).table = s.table := by
  cases stage <;> simp only [closeStatement, ShutdownState.throughSlot] <;> split <;> rfl

/-- `main` only reads the directory. -/
theorem supervise_table {s s' : ShutdownState} (stepped : supervise s = some s') :
    s'.table = s.table := by
  unfold supervise at stepped
  repeat' split at stepped
  all_goals cases stepped
  all_goals first | rfl | exact closeStatement_table ..

/-- A handler changes the directory only by its own `remove_connection`. -/
theorem teardown_table {record : ConnPtr} {s s' : ShutdownState}
    (stepped : teardown record s = some s') :
    s'.table = s.table ∨ ∃ r, s.table.heap record = some r ∧
      removeConnection r.username s.table = some s'.table := by
  unfold teardown at stepped
  split at stepped
  case h_5 _ _ r _ live =>
    obtain ⟨table, removed, rfl⟩ := Option.map_eq_some'.mp stepped
    exact .inr ⟨r, live, removed⟩
  all_goals cases stepped
  all_goals exact .inl rfl

theorem apply_table {s s' : ShutdownState} {event : Event} (applied : s.apply event = some s') :
    s'.table = s.table ∨ ∃ record r, s.table.heap record = some r ∧
      removeConnection r.username s.table = some s'.table := by
  cases event with
  | supervisor => exact .inl (supervise_table applied)
  | handler record => exact (teardown_table applied).imp_right fun removes => ⟨record, removes⟩

/-! ## One session alive at shutdown -/

/-- User `a` in slot 0 at record 0, on socket 3 with the notify pair 4 and 5. -/
def oneSession : ConnTable :=
  storeNotify 0 4 5 (installConnection 0 ['a'] 3 ConnTable.initial)

/-- `main` runs the close loop's body for slot 0, then the handler runs its teardown. -/
def closedTwice : List Event :=
  [.supervisor, .supervisor, .supervisor, .supervisor, .supervisor,
   .handler 0, .handler 0, .handler 0, .handler 0, .handler 0]

/-- `main` tests slot 0, the handler's whole teardown runs, `main` sends its goodbye. -/
def readAfterRemoval : List Event :=
  [.supervisor, .handler 0, .handler 0, .handler 0, .handler 0, .handler 0, .supervisor]

/--
With `oneSession` alive at shutdown, `closedTwice` closes each of the
session's descriptors twice, and `readAfterRemoval` has `main` read
`connections[0]` after `remove_connection` freed its record and cleared it.
-/
theorem shutdown_races_teardown :
    (∃ s, Run (ShutdownState.start oneSession) closedTwice s ∧
      s.closes 3 = 2 ∧ s.closes 4 = 2 ∧ s.closes 5 = 2) ∧
    ∃ s, Run (ShutdownState.start oneSession) readAfterRemoval s ∧
      s.supervisor = .crashed (.nullSlot 0) := by
  have removed : removeConnection ['a'] oneSession = some (oneSession.release 0 0) :=
    removeConnection_of_found (findSlotLocked_eq_some rfl fun other _ => Fin.zero_le other) rfl
  constructor
  · have run := (Run.nil (s := ShutdownState.start oneSession)).snoc .supervisor rfl
    replace run := run.snoc .supervisor rfl
    replace run := run.snoc .supervisor rfl
    replace run := run.snoc .supervisor rfl
    replace run := run.snoc .supervisor rfl
    replace run := run.snoc (.handler 0) rfl
    replace run := run.snoc (.handler 0) rfl
    replace run := run.snoc (.handler 0) rfl
    replace run := run.snoc (.handler 0) rfl
    exact ⟨_, run.snoc (.handler 0) (apply_handler_removing rfl rfl removed), rfl, rfl, rfl⟩
  · have run := (Run.nil (s := ShutdownState.start oneSession)).snoc .supervisor rfl
    replace run := run.snoc (.handler 0) rfl
    replace run := run.snoc (.handler 0) rfl
    replace run := run.snoc (.handler 0) rfl
    replace run := run.snoc (.handler 0) rfl
    replace run := run.snoc (.handler 0) (apply_handler_removing rfl rfl removed)
    exact ⟨_, run.snoc .supervisor rfl, rfl⟩

end ChatServer.Shutdown
