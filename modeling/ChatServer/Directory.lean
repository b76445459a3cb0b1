import ChatServer.Basic

/-!
# The connection directory

`connections[]` holds pointers to heap-allocated `connection_t` records, one
per live session.  Only the supervisor (`main`) inserts, at the end of the
username handshake of an accepted client; only a session's own teardown
removes, through `remove_connection`.  The handshake is not one critical
section: `find_connection`, `find_free_slot` and the insertion each take
`conn_mutex` on their own, so sessions may tear down between them.

This module models the lookups of `server.c` on the directory, the
supervisor's handshake as a program counter whose states carry the name and
slot it has settled on, the sessions' writes to the directory, and the
interleavings of all of them.  The invariant shows that what the supervisor
checked still holds when it inserts: the directory's usernames stay distinct
and valid along every run.

Record pointers are heap addresses, as for rooms: `calloc` returns the next
fresh address and `free` erases the record.
-/

namespace ChatServer.Directory

open ChatServer.Basic

/-- A `connection_t *`: the heap address of a session record. -/
abbrev ConnPtr := Nat

/-- `connection_t` with the fields the directory code writes. -/
structure Connection where
  username : List Char
  sockfd : Nat
  notifyFd : Nat
  notifyWriter : Nat
  deriving DecidableEq, Repr

/-- `connections[]`, the session records on the heap, and the allocator's next address. -/
structure ConnTable where
  connections : Fin maxConn → Option ConnPtr
  heap : ConnPtr → Option Connection
  nextConn : ConnPtr

/-- The directory at server start: `connections[] = {0}` and nothing allocated. -/
def ConnTable.initial : ConnTable :=
  ⟨fun _ => none, fun _ => none, 0⟩

/-- The record `connections[index]` points to, when it is allocated. -/
def ConnTable.recordAt (d : ConnTable) (index : Fin maxConn) : Option Connection :=
  (d.connections index).bind d.heap

/-- `connections[index]->username`, when the slot holds an allocated record. -/
def ConnTable.usernameAt (d : ConnTable) (index : Fin maxConn) : Option (List Char) :=
  (d.recordAt index).map Connection.username

/-! ## Lookups and removal -/

/-- `find_slot_locked`: the first slot whose record has the username `user`. -/
def findSlotLocked (user : List Char) (d : ConnTable) : Option (Fin maxConn) :=
  Fin.find fun index => d.usernameAt index = some user

/-- `find_connection`: the record pointer of `find_slot_locked`, under `conn_mutex`. -/
def findConnection (user : List Char) (d : ConnTable) : Option ConnPtr :=
  (findSlotLocked user d).bind d.connections

/-- `find_free_slot`: the first NULL slot of `connections[]`, under `conn_mutex`. -/
def findFreeSlot (d : ConnTable) : Option (Fin maxConn) :=
  firstFree d.connections

/-- `free(connections[index]); connections[index] = NULL;` for the record at `record`. -/
def ConnTable.release (d : ConnTable) (index : Fin maxConn) (record : ConnPtr) : ConnTable :=
  { d with
    connections := Function.update d.connections index none
    heap := Function.update d.heap record none }

/--
`remove_connection`: release the slot `find_slot_locked` returns.  When no
slot is found, the source's log line dereferences the NULL slot pointer;
that branch is `none`.
-/
def removeConnection (user : List Char) (d : ConnTable) : Option ConnTable :=
  (findSlotLocked user d).bind fun index =>
    (d.connections index).map fun record => d.release index record

/-- The username `main` hands on: the received bytes without a final newline, up to a NUL. -/
def handshakeName (received : List Char) : List Char :=
  let line := if received.getLast? = some '\n' then received.dropLast else received
  line.takeWhile (· ≠ Char.ofNat 0)

/--
The supervisor's insertion under `conn_mutex`: the `calloc`ed record at the
next address goes into `connections[idx]`, with the name `strncpy`d into
`USERNAME_LEN - 1` bytes and the client's socket.
-/
def installConnection (idx : Fin maxConn) (name : List Char) (clientFd : Nat)
    (d : ConnTable) : ConnTable :=
  { connections := Function.update d.connections idx (some d.nextConn)
    heap := Function.update d.heap d.nextConn
      (some ⟨name.take (usernameLen - 1), clientFd, 0, 0⟩)
    nextConn := d.nextConn + 1 }

/-- A session storing the ends of its notify socketpair in its own record. -/
def storeNotify (record : ConnPtr) (notifyFd notifyWriter : Nat) (d : ConnTable) :
    ConnTable :=
  { d with
    heap := Function.update d.heap record
      ((d.heap record).map fun r => { r with notifyFd := notifyFd, notifyWriter := notifyWriter }) }

/-! ## Interleaved handshakes and teardowns -/

/-- Where the supervisor stands in the handshake of the client it accepted. -/
inductive Supervisor where
  /-- Waiting in `accept`. -/
  | accepting
  /-- Waiting for a username line on `clientFd`. -/
  | handshaking (clientFd : Nat)
  /-- `name` is valid and `find_connection` returned NULL. -/
  | checked (clientFd : Nat) (name : List Char)
  /-- Moreover `find_free_slot` returned `idx`. -/
  | slotted (clientFd : Nat) (name : List Char) (idx : Fin maxConn)

/-- The name the supervisor has checked and not yet inserted. -/
def Supervisor.pendingName : Supervisor → Option (List Char)
  | .checked _ name => some name
  | .slotted _ name _ => some name
  | _ => none

/-- The slot the supervisor has found and not yet filled. -/
def Supervisor.pendingSlot : Supervisor → Option (Fin maxConn)
  | .slotted _ _ idx => some idx
  | _ => none

/-- The shared state: the directory and the supervisor's place in its loop. -/
structure System where
  dir : ConnTable
  supervisor : Supervisor

/-- The server after its setup: an empty directory, the supervisor in `accept`. -/
def System.initial : System :=
  ⟨ConnTable.initial, .accepting⟩

/--
One atomic step of the supervisor or of a session.  The supervisor's local
work (receiving, stripping, validating) is folded into the critical section
that follows it; a session is named by its record, which it can only reach
while the record is allocated.
-/
inductive Step : System → System → Prop
  | accept {d : ConnTable} (clientFd : Nat) :
      Step ⟨d, .accepting⟩ ⟨d, .handshaking clientFd⟩
  /-- `recv` returned 0 or an error: the client is closed and dropped. -/
  | recvFailed {d : ConnTable} {clientFd : Nat} :
      Step ⟨d, .handshaking clientFd⟩ ⟨d, .accepting⟩
  | rejectInvalid {d : ConnTable} {clientFd : Nat} (received : List Char)
      (invalid : isValidUsername (handshakeName received) = false) :
      Step ⟨d, .handshaking clientFd⟩ ⟨d, .handshaking clientFd⟩
  | rejectTaken {d : ConnTable} {clientFd : Nat} (received : List Char)
      (valid : isValidUsername (handshakeName received) = true)
      (taken : (findConnection (handshakeName received) d).isSome) :
      Step ⟨d, .handshaking clientFd⟩ ⟨d, .handshaking clientFd⟩
  | check {d : ConnTable} {clientFd : Nat} (received : List Char)
      (valid : isValidUsername (handshakeName received) = true)
      (absent : findConnection (handshakeName received) d = none) :
      Step ⟨d, .handshaking clientFd⟩ ⟨d, .checked clientFd (handshakeName received)⟩
  | serverFull {d : ConnTable} {clientFd : Nat} {name : List Char}
      (full : findFreeSlot d = none) :
      Step ⟨d, .checked clientFd name⟩ ⟨d, .handshaking clientFd⟩
  | findSlot {d : ConnTable} {clientFd : Nat} {name : List Char} {idx : Fin maxConn}
      (found : findFreeSlot d = some idx) :
      Step ⟨d, .checked clientFd name⟩ ⟨d, .slotted clientFd name idx⟩
  /-- `calloc` failed: the socket is closed and the loop goes round again. -/
  | callocFailed {d : ConnTable} {clientFd : Nat} {name : List Char} {idx : Fin maxConn} :
      Step ⟨d, .slotted clientFd name idx⟩ ⟨d, .handshaking clientFd⟩
  | install {d : ConnTable} {clientFd : Nat} {name : List Char} {idx : Fin maxConn} :
      Step ⟨d, .slotted clientFd name idx⟩
        ⟨installConnection idx name clientFd d, .accepting⟩
  /-- `client_handler` storing `fds[0]` and `fds[1]` under `conn_mutex`. -/
  | storeNotify {d : ConnTable} {supervisor : Supervisor} {record : ConnPtr}
      {r : Connection} (notifyFd notifyWriter : Nat) (live : d.heap record = some r) :
      Step ⟨d, supervisor⟩ ⟨storeNotify record notifyFd notifyWriter d, supervisor⟩
  /-- `remove_connection(removed_user)` at the end of a session's teardown. -/
  | remove {d d' : ConnTable} {supervisor : Supervisor} {record : ConnPtr}
      {r : Connection} (live : d.heap record = some r)
      (removed : removeConnection r.username d = some d') :
      Step ⟨d, supervisor⟩ ⟨d', supervisor⟩

/-- The states some interleaving reaches from the server's start. -/
inductive Reachable : System → Prop
  | initial : Reachable System.initial
  | step {s s' : System} : Reachable s → Step s s' → Reachable s'

/-! ## Spec lemmas -/

section Spec

variable {d : ConnTable}

theorem findConnection_eq_none {user : List Char} :
    findConnection user d = none ↔ ∀ index, d.usernameAt index ≠ some user := by
  constructor
  · intro missing index held
    obtain ⟨found, first⟩ : ∃ found, findSlotLocked user d = some found :=
      Option.ne_none_iff_exists'.mp fun none_found =>
        (Fin.find_eq_none_iff.mp none_found) index held
    have holds : d.usernameAt found = some user :=
      (Fin.find_eq_some_iff.mp first).1
    simp only [findConnection, first, Option.some_bind] at missing
    simp [ConnTable.usernameAt, ConnTable.recordAt, missing] at holds
  · intro absent
    simp [findConnection, findSlotLocked, Fin.find_eq_none_iff.mpr absent]

theorem findFreeSlot_eq_some {idx : Fin maxConn} (found : findFreeSlot d = some idx) :
    d.connections idx = none :=
  (firstFree_eq_some.mp found).1

/-- `remove_connection` succeeds exactly by releasing the slot holding `user`. -/
theorem removeConnection_eq_some {user : List Char} {d' : ConnTable}
    (removed : removeConnection user d = some d') :
    ∃ index record, d.connections index = some record ∧
      d.usernameAt index = some user ∧ d' = d.release index record := by
  unfold removeConnection at removed
  obtain ⟨index, found, released⟩ := Option.bind_eq_some.mp removed
  obtain ⟨record, held, rfl⟩ := Option.map_eq_some'.mp released
  exact ⟨index, record, held, (Fin.find_eq_some_iff.mp found).1, rfl⟩

theorem removeConnection_of_found {user : List Char} {index : Fin maxConn} {record : ConnPtr}
    (found : findSlotLocked user d = some index) (held : d.connections index = some record) :
    removeConnection user d = some (d.release index record) := by
  simp [removeConnection, found, held]

/-- The first slot holding `user` is found. -/
theorem findSlotLocked_eq_some {user : List Char} {index : Fin maxConn}
    (named : d.usernameAt index = some user)
    (first : ∀ other, d.usernameAt other = some user → index ≤ other) :
    findSlotLocked user d = some index :=
  Fin.find_eq_some_iff.mpr ⟨named, first⟩

/-- In a directory whose slots hold distinct pointers, a release clears one slot's record. -/
theorem recordAt_release {index : Fin maxConn} {record : ConnPtr}
    (held : d.connections index = some record)
    (unique : ∀ j, d.connections j = some record → j = index) (other : Fin maxConn) :
    (d.release index record).recordAt other =
      if other = index then none else d.recordAt other := by
  simp only [ConnTable.recordAt, ConnTable.release]
  split_ifs with same
  · subst same
    simp
  · rw [Function.update_noteq same]
    cases pointer : d.connections other with
    | none => rfl
    | some q =>
        have different : q ≠ record := fun equal => same (unique other (equal ▸ pointer))
        simp [Function.update_noteq different]

/-- In a directory whose pointers are all below `nextConn`, an insertion fills one slot. -/
theorem recordAt_install {idx : Fin maxConn} {name : List Char} {clientFd : Nat}
    (below : ∀ j p, d.connections j = some p → p < d.nextConn) (other : Fin maxConn) :
    (installConnection idx name clientFd d).recordAt other =
      if other = idx then some ⟨name.take (usernameLen - 1), clientFd, 0, 0⟩
      else d.recordAt other := by
  simp only [ConnTable.recordAt, installConnection]
  split_ifs with same
  · subst same
    simp
  · rw [Function.update_noteq same]
    cases pointer : d.connections other with
    | none => rfl
    | some q => simp [Function.update_noteq (Nat.ne_of_lt (below other q pointer))]

theorem connections_install {idx : Fin maxConn} {name : List Char} {clientFd : Nat}
    (other : Fin maxConn) :
    (installConnection idx name clientFd d).connections other =
      if other = idx then some d.nextConn else d.connections other :=
  Function.update_apply _ _ _ _

@[simp]
theorem usernameAt_storeNotify {record : ConnPtr} {notifyFd notifyWriter : Nat}
    (index : Fin maxConn) :
    (storeNotify record notifyFd notifyWriter d).usernameAt index = d.usernameAt index := by
  unfold ConnTable.usernameAt ConnTable.recordAt storeNotify
  cases d.connections index with
  | none => rfl
  | some q =>
      by_cases same : q = record
      · subst same
        cases found : d.heap q <;> simp [found]
      · simp [Function.update_noteq same]

@[simp]
theorem connections_storeNotify {record : ConnPtr} {notifyFd notifyWriter : Nat} :
    (storeNotify record notifyFd notifyWriter d).connections = d.connections := rfl

end Spec

/-! ## The invariant -/

/-- The pointer layout: allocated slots, addresses below `nextConn`, no pointer twice. -/
structure Layout (d : ConnTable) : Prop where
  allocated : ∀ index, (d.connections index).isSome → (d.usernameAt index).isSome
  below : ∀ index p, d.connections index = some p → p < d.nextConn
  slot_unique : ∀ i j p, d.connections i = some p → d.connections j = some p → i = j

/-- What every reachable state satisfies. -/
structure Inv (s : System) extends Layout s.dir : Prop where
  names_valid : ∀ index u, s.dir.usernameAt index = some u → isValidUsername u = true
  names_distinct : ∀ i j u, s.dir.usernameAt i = some u → s.dir.usernameAt j = some u → i = j
  pending_absent : ∀ name, s.supervisor.pendingName = some name →
    isValidUsername name = true ∧ ∀ index, s.dir.usernameAt index ≠ some name
  pending_free : ∀ idx, s.supervisor.pendingSlot = some idx → s.dir.connections idx = none

theorem inv_initial : Inv System.initial :=
  ⟨⟨fun _ held => by simp [System.initial, ConnTable.initial] at held,
    fun _ _ held => by simp [System.initial, ConnTable.initial] at held,
    fun _ _ _ held => by simp [System.initial, ConnTable.initial] at held⟩,
   fun _ _ held => by simp [System.initial, ConnTable.initial, ConnTable.usernameAt,
      ConnTable.recordAt] at held,
   fun _ _ _ held => by simp [System.initial, ConnTable.initial, ConnTable.usernameAt,
      ConnTable.recordAt] at held,
   fun _ pending => by simp [System.initial, Supervisor.pendingName] at pending,
   fun _ pending => by simp [System.initial, Supervisor.pendingSlot] at pending⟩

section Preservation

variable {d : ConnTable} {supervisor : Supervisor}

/-- A supervisor step that leaves the directory alone and settles on nothing keeps the invariant. -/
theorem Inv.forget (inv : Inv ⟨d, supervisor⟩) {supervisor' : Supervisor}
    (noName : supervisor'.pendingName = none) (noSlot : supervisor'.pendingSlot = none) :
    Inv ⟨d, supervisor'⟩ :=
  { inv with
    pending_absent := fun _ pending => by simp [noName] at pending
    pending_free := fun _ pending => by simp [noSlot] at pending }

theorem Inv.check (inv : Inv ⟨d, supervisor⟩) {clientFd : Nat} {name : List Char}
    (valid : isValidUsername name = true) (absent : findConnection name d = none) :
    Inv ⟨d, .checked clientFd name⟩ :=
  { inv with
    pending_absent := fun _ pending => by
      cases pending
      exact ⟨valid, findConnection_eq_none.mp absent⟩
    pending_free := fun _ pending => by simp [Supervisor.pendingSlot] at pending }

theorem Inv.findSlot {clientFd : Nat} {name : List Char} (inv : Inv ⟨d, .checked clientFd name⟩)
    {idx : Fin maxConn} (found : findFreeSlot d = some idx) :
    Inv ⟨d, .slotted clientFd name idx⟩ :=
  { inv with
    pending_absent := inv.pending_absent
    pending_free := fun _ pending => by
      cases pending
      exact findFreeSlot_eq_some found }

/-- A valid name survives `strncpy` into `USERNAME_LEN - 1` bytes. -/
theorem take_of_valid {name : List Char} (valid : isValidUsername name = true) :
    name.take (usernameLen - 1) = name :=
  List.take_of_length_le (by have := (isValidName_iff.mp valid).2.1; unfold usernameLen at *; omega)

theorem Inv.install {clientFd : Nat} {name : List Char} {idx : Fin maxConn}
    (inv : Inv ⟨d, .slotted clientFd name idx⟩) :
    Inv ⟨installConnection idx name clientFd d, .accepting⟩ := by
  obtain ⟨valid, absent⟩ := inv.pending_absent name rfl
  have free := inv.pending_free idx rfl
  have names : ∀ j, (installConnection idx name clientFd d).usernameAt j =
      if j = idx then some name else d.usernameAt j := by
    intro j
    unfold ConnTable.usernameAt
    rw [recordAt_install inv.below]
    split_ifs <;> simp [take_of_valid valid]
  refine ⟨⟨fun j occupied => ?_, fun j p held => ?_, fun i j p held held' => ?_⟩,
    fun j u held => ?_, fun i j u held held' => ?_, fun _ pending => ?_, fun _ pending => ?_⟩
  · rw [names]
    rw [connections_install] at occupied
    split_ifs at occupied ⊢
    · rfl
    · exact inv.allocated j occupied
  · rw [connections_install] at held
    split_ifs at held
    · cases held
      exact Nat.lt_succ_self _
    · exact Nat.lt_succ_of_lt (inv.below j p held)
  · rw [connections_install] at held held'
    split_ifs at held held' with first second second
    · exact first.trans second.symm
    · cases held
      exact absurd (inv.below j _ held') (Nat.lt_irrefl _)
    · cases held'
      exact absurd (inv.below i _ held) (Nat.lt_irrefl _)
    · exact inv.slot_unique i j p held held'
  · rw [names] at held
    split_ifs at held
    · exact Option.some.inj held ▸ valid
    · exact inv.names_valid j u held
  · rw [names] at held held'
    split_ifs at held held' with first second second
    · exact first.trans second.symm
    · exact absurd (Option.some.inj held ▸ held') (absent j)
    · exact absurd (Option.some.inj held' ▸ held) (absent i)
    · exact inv.names_distinct i j u held held'
  · simp [Supervisor.pendingName] at pending
  · simp [Supervisor.pendingSlot] at pending

theorem Inv.storeNotify (inv : Inv ⟨d, supervisor⟩) (record : ConnPtr)
    (notifyFd notifyWriter : Nat) :
    Inv ⟨ChatServer.Directory.storeNotify record notifyFd notifyWriter d, supervisor⟩ := by
  refine ⟨⟨?_, inv.below, inv.slot_unique⟩, ?_, ?_, ?_, inv.pending_free⟩
  · simpa using inv.allocated
  · simpa using inv.names_valid
  · simpa using inv.names_distinct
  · simpa using inv.pending_absent

/--
A change that only clears slots, and keeps the other slots with their
records' usernames, keeps the invariant.
-/
theorem Inv.shrink (inv : Inv ⟨d, supervisor⟩) {d' : ConnTable}
    (slots : ∀ j, d'.connections j = none ∨
      (d'.connections j = d.connections j ∧ d'.usernameAt j = d.usernameAt j))
    (names : ∀ j u, d'.usernameAt j = some u → d.usernameAt j = some u)
    (next : d'.nextConn = d.nextConn) : Inv ⟨d', supervisor⟩ := by
  refine ⟨⟨fun j occupied => ?_, fun j p held => ?_, fun i j p held held' => ?_⟩,
    fun j u held => inv.names_valid j u (names j u held),
    fun i j u held held' => inv.names_distinct i j u (names i u held) (names j u held'),
    fun name pending => ?_, fun idx pending => ?_⟩
  · rcases slots j with cleared | ⟨kept, sameName⟩
    · simp [cleared] at occupied
    · exact sameName ▸ inv.allocated j (kept ▸ occupied)
  · rcases slots j with cleared | ⟨kept, -⟩
    · simp [cleared] at held
    · exact next ▸ inv.below j p (kept ▸ held)
  · rcases slots i with cleared | ⟨kept, -⟩
    · simp [cleared] at held
    rcases slots j with cleared' | ⟨kept', -⟩
    · simp [cleared'] at held'
    · exact inv.slot_unique i j p (kept ▸ held) (kept' ▸ held')
  · obtain ⟨valid, absent⟩ := inv.pending_absent name pending
    exact ⟨valid, fun j held => absent j (names j name held)⟩
  · rcases slots idx with cleared | ⟨kept, -⟩
    · exact cleared
    · exact kept.trans (inv.pending_free idx pending)

theorem Inv.remove (inv : Inv ⟨d, supervisor⟩) {user : List Char} {d' : ConnTable}
    (removed : removeConnection user d = some d') : Inv ⟨d', supervisor⟩ := by
  obtain ⟨index, record, held, -, rfl⟩ := removeConnection_eq_some removed
  have records := recordAt_release held fun j held' => inv.slot_unique j index record held' held
  refine inv.shrink (fun j => ?_) (fun j u named => ?_) rfl
  · by_cases same : j = index
    · exact .inl (by simp [ConnTable.release, same])
    · refine .inr ⟨Function.update_noteq same _ _, ?_⟩
      simp only [ConnTable.usernameAt, records, if_neg same]
  · simp only [ConnTable.usernameAt, records] at named ⊢
    split_ifs at named
    · simp at named
    · exact named

theorem Inv.step {s s' : System} (inv : Inv s) (step : Step s s') : Inv s' := by
  cases step with
  | accept => exact inv.forget rfl rfl
  | recvFailed => exact inv.forget rfl rfl
  | rejectInvalid => exact inv.forget rfl rfl
  | rejectTaken => exact inv.forget rfl rfl
  | check _ valid absent => exact inv.check valid absent
  | serverFull => exact inv.forget rfl rfl
  | findSlot found => exact inv.findSlot found
  | callocFailed => exact inv.forget rfl rfl
  | install => exact inv.install
  | storeNotify notifyFd notifyWriter => exact inv.storeNotify _ notifyFd notifyWriter
  | remove _ removed => exact inv.remove removed

end Preservation

theorem inv_of_reachable {s : System} (reachable : Reachable s) : Inv s := by
  induction reachable with
  | initial => exact inv_initial
  | step _ step inv => exact inv.step step

/--
The directory as the server's comments describe it: every non-NULL slot holds a record,
every stored username is valid, and no two slots hold equal usernames.
-/
structure Registered (d : ConnTable) : Prop where
  allocated : ∀ index, (d.connections index).isSome → (d.usernameAt index).isSome
  names_valid : ∀ index u, d.usernameAt index = some u → isValidUsername u = true
  names_distinct : ∀ i j u, d.usernameAt i = some u → d.usernameAt j = some u → i = j

/-- Every interleaving of handshakes with teardowns keeps usernames distinct and valid. -/
theorem usernames_unique_of_reachable {s : System} (reachable : Reachable s) :
    Registered s.dir :=
  have inv := inv_of_reachable reachable
  ⟨inv.allocated, inv.names_valid, inv.names_distinct⟩

/-- The state after the handshake of one client that sent `a` and a newline. -/
def afterFirstLogin : System :=
  ⟨installConnection ⟨0, by decide⟩ (handshakeName ['a', '\n']) 3 ConnTable.initial,
    .accepting⟩

theorem reachable_afterFirstLogin : Reachable afterFirstLogin := by
  unfold afterFirstLogin
  have absent : findConnection (handshakeName ['a', '\n']) ConnTable.initial = none :=
    findConnection_eq_none.mpr fun _ => by simp [ConnTable.usernameAt, ConnTable.recordAt,
      ConnTable.initial]
  have free : findFreeSlot ConnTable.initial = some ⟨0, by decide⟩ :=
    firstFree_eq_some.mpr ⟨rfl, fun _ _ => Fin.zero_le _⟩
  exact .step (.step (.step (.step .initial (.accept 3)) (.check _ (by decide) absent))
    (.findSlot free)) .install

theorem usernames_unique_after_first_login :
    Reachable afterFirstLogin ∧ Registered afterFirstLogin.dir :=
  ⟨reachable_afterFirstLogin, usernames_unique_of_reachable reachable_afterFirstLogin⟩

end ChatServer.Directory
