import ChatServer.Directory

/-!
# The start barrier between `main` and a new `client_handler`

Once the handshake has installed a record in `connections[idx]`, `main`
calls `pthread_create(&thread, &attr, client_handler, connections[idx])`
and then, reading the slot again at every step, stores the thread handle,
initializes `init_mutex` and `init_cond`, waits under `init_mutex` until
`initialized` is set, and logs the handler's `tid` and username.  The
handler stores its `tid`, sets `initialized` and signals under `init_mutex`,
and runs its session; a client that disconnects at once sends it straight to
the teardown, whose `remove_connection` sets the slot to NULL and frees the
record.

This module models the two threads after `pthread_create` as a state and
one step function per thread; a schedule is the list of threads that move.
Each supervisor step that reads `connections[idx]` checks that the slot
still holds the installed record, and the handler's uses of `init_mutex`
and `init_cond` check that they were initialized.  The session loop and the
rest of the teardown touch neither, so they are one step each; the
`socketpair` is taken to succeed, as the teardown then runs.

Until the handler's teardown every access finds the slot as it was, over
every schedule; but nothing orders the teardown after `main`'s last access,
and nothing orders the initializations before the handler's first lock.
-/

namespace ChatServer.SpawnBarrier

open ChatServer.Basic ChatServer.Directory

/-- Where `main` stands after `pthread_create`. -/
inductive SupervisorPc where
  /-- `connections[idx]->thread_info.thread = thread;` -/
  | storeThread
  /-- `pthread_mutex_init(&connections[idx]->thread_info.init_mutex, NULL);` -/
  | initMutex
  /-- `pthread_cond_init(&connections[idx]->thread_info.init_cond, NULL);` -/
  | initCond
  /-- `pthread_mutex_lock(&connections[idx]->thread_info.init_mutex);` -/
  | lock
  /-- `while (!connections[idx]->thread_info.initialized)`. -/
  | check
  /-- Inside `pthread_cond_wait`, with `init_mutex` released. -/
  | waiting
  /-- `pthread_mutex_unlock(&connections[idx]->thread_info.init_mutex);` -/
  | unlock
  /-- The log line reading `connections[idx]->thread_info.tid` and `->username`. -/
  | log
  /-- Back at `accept`. -/
  | done
  deriving DecidableEq, Repr

/-- Where `client_handler` stands. -/
inductive HandlerPc where
  /-- `connection->thread_info.tid = syscall(SYS_gettid);` under `conn_mutex`. -/
  | storeTid
  /-- `pthread_mutex_lock(&connection->thread_info.init_mutex);` -/
  | lock
  /-- `initialized = 1; pthread_cond_signal(&connection->thread_info.init_cond);` -/
  | signal
  /-- `pthread_mutex_unlock(&connection->thread_info.init_mutex);` -/
  | unlock
  /-- The `socketpair` and the session loop, left when the client disconnects. -/
  | session
  /-- The teardown, ending in `remove_connection(removed_user)`. -/
  | teardown
  /-- Returned. -/
  | done
  deriving DecidableEq, Repr

/-- The two threads. -/
inductive Party where
  | supervisor
  | handler
  deriving DecidableEq, Repr

/-- The shared state: the directory and the `thread_info` of the installed record. -/
structure Spawn where
  dir : ConnTable
  /-- The slot `main` filled. -/
  idx : Fin maxConn
  /-- The record `main` installed there and passed to `client_handler`. -/
  record : ConnPtr
  /-- `pthread_mutex_init` has run on `init_mutex`. -/
  mutexReady : Bool
  /-- `pthread_cond_init` has run on `init_cond`. -/
  condReady : Bool
  initialized : Bool
  /-- The thread holding `init_mutex`. -/
  holder : Option Party
  supervisor : SupervisorPc
  handler : HandlerPc

/--
Right after `pthread_create`: the record is `calloc`ed, so `initialized` is
0, and neither `init_mutex` nor `init_cond` has been initialized.
-/
def Spawn.start (d : ConnTable) (idx : Fin maxConn) (record : ConnPtr) : Spawn :=
  ⟨d, idx, record, false, false, false, none, .storeThread, .storeTid⟩

/-- What goes wrong. -/
inductive Fault where
  /-- `main` reads `connections[idx]` at `place` and the slot no longer holds its record. -/
  | slotLost (place : SupervisorPc)
  /-- The handler locks `init_mutex` before `pthread_mutex_init`. -/
  | mutexUninitialized
  /-- The handler signals `init_cond` before `pthread_cond_init`. -/
  | condUninitialized
  /-- `remove_connection` finds no slot and dereferences NULL. -/
  | removeMissing
  deriving DecidableEq, Repr

/-- The result of one step. -/
inductive Outcome where
  | next (s : Spawn)
  /-- The thread waits for a mutex or has returned. -/
  | blocked
  | fault (f : Fault)

/-- `main`'s next step.  All but the wake-up inside `pthread_cond_wait` read the slot. -/
def supervisorStep (s : Spawn) : Outcome :=
  let access (andThen : Outcome) : Outcome :=
    if s.dir.connections s.idx = some s.record then andThen else .fault (.slotLost s.supervisor)
  match s.supervisor with
  | .storeThread => access (.next { s with supervisor := .initMutex })
  | .initMutex => access (.next { s with mutexReady := true, supervisor := .initCond })
  | .initCond => access (.next { s with condReady := true, supervisor := .lock })
  | .lock =>
      access (if s.holder = none then
          .next { s with holder := some .supervisor, supervisor := .check }
        else .blocked)
  | .check =>
      access (if s.initialized then .next { s with supervisor := .unlock }
        else .next { s with holder := none, supervisor := .waiting })
  | .waiting =>
      if s.holder = none then .next { s with holder := some .supervisor, supervisor := .check }
      else .blocked
  | .unlock => access (.next { s with holder := none, supervisor := .log })
  | .log => access (.next { s with supervisor := .done })
  | .done => .blocked

/-- `remove_connection` of the name in the handler's record. -/
def removeOwn (d : ConnTable) (record : ConnPtr) : Option ConnTable :=
  (d.heap record).bind fun r => removeConnection r.username d

/-- The handler's next step, through its own `connection` pointer. -/
def handlerStep (s : Spawn) : Outcome :=
  match s.handler with
  | .storeTid => .next { s with handler := .lock }
  | .lock =>
      if s.mutexReady = false then .fault .mutexUninitialized
      else if s.holder = none then .next { s with holder := some .handler, handler := .signal }
      else .blocked
  | .signal =>
      if s.condReady = false then .fault .condUninitialized
      else .next { s with initialized := true, handler := .unlock }
  | .unlock => .next { s with holder := none, handler := .session }
  | .session => .next { s with handler := .teardown }
  | .teardown =>
      match removeOwn s.dir s.record with
      | some d' => .next { s with dir := d', handler := .done }
      | none => .fault .removeMissing
  | .done => .blocked

/-- A step of one thread. -/
def Spawn.step (s : Spawn) : Party → Outcome
  | .supervisor => supervisorStep s
  | .handler => handlerStep s

/-- The threads moving in the order `schedule` gives, up to the first fault or blocked step. -/
def Spawn.run (s : Spawn) : List Party → Outcome
  | [] => .next s
  | party :: rest =>
      match s.step party with
      | .next s' => s'.run rest
      | stopped => stopped

/-! ## What one step can do -/

section Steps

variable {s s' : Spawn}

/-- `main` changes neither the directory nor the handler's place. -/
theorem supervisorStep_next (stepped : supervisorStep s = .next s') :
    s'.dir = s.dir ∧ s'.idx = s.idx ∧ s'.record = s.record ∧ s'.handler = s.handler := by
  simp only [supervisorStep] at stepped
  split at stepped <;> (try split_ifs at stepped) <;> cases stepped <;>
    exact ⟨rfl, rfl, rfl, rfl⟩

/-- The handler changes the directory only by the teardown that ends it. -/
theorem handlerStep_next (stepped : handlerStep s = .next s') :
    s'.idx = s.idx ∧ s'.record = s.record ∧
      (s'.handler = .done ∨ s'.dir = s.dir ∧ s.handler ≠ .done) := by
  simp only [handlerStep] at stepped
  split at stepped <;> (try split_ifs at stepped) <;> (try split at stepped) <;> cases stepped <;>
    simp [*]

/-- `main` meets a lost slot only where the slot no longer holds its record. -/
theorem supervisorStep_slotLost {place : SupervisorPc}
    (faulted : supervisorStep s = .fault (.slotLost place)) :
    s.dir.connections s.idx ≠ some s.record := by
  simp only [supervisorStep] at faulted
  split at faulted <;> (try split_ifs at faulted) <;> first | assumption | cases faulted

/-- The handler's faults are its own. -/
theorem handlerStep_ne_slotLost (place : SupervisorPc) :
    handlerStep s ≠ .fault (.slotLost place) := by
  simp only [handlerStep]
  split <;> (try split_ifs) <;> (try split) <;> simp

end Steps

/-! ## Over every schedule -/

/-- A run that faults reaches, by a shorter schedule, a state whose next step faults. -/
theorem run_eq_fault {s : Spawn} {schedule : List Party} {f : Fault}
    (faulted : s.run schedule = .fault f) :
    ∃ before party s', s.run before = .next s' ∧ s'.step party = .fault f := by
  induction schedule generalizing s with
  | nil => cases faulted
  | cons party rest ih =>
      simp only [Spawn.run] at faulted
      cases stepped : s.step party with
      | next s' =>
          rw [stepped] at faulted
          obtain ⟨before, party', s'', reached, last⟩ := ih faulted
          exact ⟨party :: before, party', s'', by simp only [Spawn.run, stepped, reached], last⟩
      | blocked => rw [stepped] at faulted; cases faulted
      | fault f' => rw [stepped] at faulted; exact ⟨[], party, s, rfl, stepped.trans faulted⟩

/-- What every state reached from `Spawn.start d idx record` keeps. -/
structure Keeps (d : ConnTable) (idx : Fin maxConn) (record : ConnPtr) (s : Spawn) : Prop where
  idx_eq : s.idx = idx
  record_eq : s.record = record
  /-- Until the handler has returned, the directory is the one `main` left. -/
  dir_eq : s.handler ≠ .done → s.dir = d

section Keeps

variable {d : ConnTable} {idx : Fin maxConn} {record : ConnPtr}

theorem keeps_start : Keeps d idx record (Spawn.start d idx record) :=
  ⟨rfl, rfl, fun _ => rfl⟩

theorem Keeps.step {s s' : Spawn} (keeps : Keeps d idx record s) {party : Party}
    (stepped : s.step party = .next s') : Keeps d idx record s' := by
  cases party with
  | supervisor =>
      obtain ⟨dir, sameIdx, sameRecord, handler⟩ := supervisorStep_next stepped
      exact ⟨sameIdx.trans keeps.idx_eq, sameRecord.trans keeps.record_eq,
        fun running => dir.trans (keeps.dir_eq (handler ▸ running))⟩
  | handler =>
      obtain ⟨sameIdx, sameRecord, ended | ⟨dir, running⟩⟩ := handlerStep_next stepped
      · exact ⟨sameIdx.trans keeps.idx_eq, sameRecord.trans keeps.record_eq,
          fun running => absurd ended running⟩
      · exact ⟨sameIdx.trans keeps.idx_eq, sameRecord.trans keeps.record_eq,
          fun _ => dir.trans (keeps.dir_eq running)⟩

/-- Every state a schedule reaches keeps `Keeps`. -/
theorem Keeps.run {s s' : Spawn} (keeps : Keeps d idx record s) {schedule : List Party}
    (reached : s.run schedule = .next s') : Keeps d idx record s' := by
  induction schedule generalizing s with
  | nil => cases reached; exact keeps
  | cons party rest ih =>
      simp only [Spawn.run] at reached
      cases stepped : s.step party with
      | next s'' => rw [stepped] at reached; exact ih (keeps.step stepped) reached
      | blocked => rw [stepped] at reached; cases reached
      | fault f => rw [stepped] at reached; cases reached

end Keeps

/-! ## The races -/

/--
A client that disconnects at once: `main` stores the handle, initializes
the mutex and the condition, locks and enters `pthread_cond_wait`; the
handler passes the barrier, ends its session and tears down; `main` wakes
and reads `connections[idx]->thread_info.initialized`.
-/
def earlyTeardown : List Party :=
  List.replicate 5 .supervisor ++ List.replicate 6 .handler ++ List.replicate 2 .supervisor

/--
The barrier orders neither way.  A handler scheduled first locks
`init_mutex` before `main` has run `pthread_mutex_init` on it; and a
handler whose client disconnects at once frees the record and clears
`connections[idx]` while `main` waits in `pthread_cond_wait`, so `main`'s
next access finds the slot NULL.
-/
theorem spawn_barrier_races (d : ConnTable) (inv : Inv ⟨d, .accepting⟩) (idx : Fin maxConn)
    (record : ConnPtr) (slot : d.connections idx = some record) :
    (Spawn.start d idx record).run [.handler, .handler] = .fault .mutexUninitialized ∧
      (Spawn.start d idx record).run earlyTeardown = .fault (.slotLost .check) := by
  obtain ⟨r, live⟩ : ∃ r, d.heap record = some r := by
    simpa [ConnTable.usernameAt, ConnTable.recordAt, slot, Option.isSome_iff_exists] using
      inv.allocated idx (by simp [slot])
  have named : d.usernameAt idx = some r.username := by
    simp [ConnTable.usernameAt, ConnTable.recordAt, slot, live]
  have removed : removeOwn d record = some (d.release idx record) := by
    simp only [removeOwn, live, Option.some_bind]
    exact removeConnection_of_found (findSlotLocked_eq_some named fun other held =>
      (inv.names_distinct idx other _ named held).le) slot
  refine ⟨rfl, ?_⟩
  simp [Spawn.run, earlyTeardown, Spawn.step, supervisorStep, handlerStep, Spawn.start, slot,
    removed, ConnTable.release]

theorem spawn_barrier_races_after_first_login :
    Inv ⟨afterFirstLogin.dir, .accepting⟩ ∧
      afterFirstLogin.dir.connections ⟨0, by decide⟩ = some 0 ∧
      (Spawn.start afterFirstLogin.dir ⟨0, by decide⟩ 0).run [.handler, .handler] =
        .fault .mutexUninitialized ∧
      (Spawn.start afterFirstLogin.dir ⟨0, by decide⟩ 0).run earlyTeardown =
        .fault (.slotLost .check) :=
  have inv : Inv ⟨afterFirstLogin.dir, .accepting⟩ := inv_of_reachable reachable_afterFirstLogin
  ⟨inv, rfl, spawn_barrier_races afterFirstLogin.dir inv _ _ rfl⟩

/--
Over every schedule, each access of `main` to `connections[idx]` made
while the handler has not returned finds the record `main` installed: a
lost slot is met only in a state where the handler's teardown has run.
-/
theorem slot_lost_only_after_teardown {d : ConnTable} {idx : Fin maxConn} {record : ConnPtr}
    (slot : d.connections idx = some record) {schedule : List Party} {place : SupervisorPc}
    (faulted : (Spawn.start d idx record).run schedule = .fault (.slotLost place)) :
    ∃ before s, (Spawn.start d idx record).run before = .next s ∧ s.handler = .done ∧
      supervisorStep s = .fault (.slotLost place) := by
  obtain ⟨before, party, s, reached, last⟩ := run_eq_fault faulted
  have keeps := keeps_start.run reached
  cases party with
  | handler => exact absurd last (handlerStep_ne_slotLost place)
  | supervisor =>
      refine ⟨before, s, reached, ?_, last⟩
      by_contra running
      apply supervisorStep_slotLost last
      rw [keeps.dir_eq running, keeps.idx_eq, keeps.record_eq]
      exact slot

/-- The early teardown's lost slot is met once the handler has torn down. -/
theorem slot_lost_only_after_teardown_of_earlyTeardown :
    afterFirstLogin.dir.connections ⟨0, by decide⟩ = some 0 ∧
      (Spawn.start afterFirstLogin.dir ⟨0, by decide⟩ 0).run earlyTeardown =
        .fault (.slotLost .check) ∧
      ∃ before s, (Spawn.start afterFirstLogin.dir ⟨0, by decide⟩ 0).run before = .next s ∧
        s.handler = .done ∧ supervisorStep s = .fault (.slotLost .check) :=
  have faulted : (Spawn.start afterFirstLogin.dir ⟨0, by decide⟩ 0).run earlyTeardown =
      .fault (.slotLost .check) := by
    set_option maxRecDepth 4000 in rfl
  ⟨rfl, faulted, slot_lost_only_after_teardown rfl faulted⟩

end ChatServer.SpawnBarrier
