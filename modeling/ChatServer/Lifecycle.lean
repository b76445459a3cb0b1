import ChatServer.Directory
import Mathlib.Logic.Relation

/-!
# One client, from `accept` to the end of its session

After `accept`, `main` runs the username handshake on `client_fd`: each pass
of `while (!handshake_ok)` calls `recv` for at most `sizeof(username) - 1 =
15` bytes, strips a final newline, checks the name, and either replies with
an error and goes round again, gives up on the client when `recv` returns 0
or less, or allocates and installs a `connection_t` and replies `[OK]`.  The
session's `client_handler` then creates the notify socketpair and, once its
loop ends, closes the three descriptors and removes the record through
`remove_connection`.

This module models that path as functions over the outcomes of the calls it
depends on, returning the effects in order: what is sent, which descriptors
are closed, which slot gets which record and which record is released.  The
handshake is shown to take the steps of the supervisor of
`ChatServer.Directory`.

Two failure paths go wrong.  When `calloc` fails, `client_fd` is closed and
the loop goes round again, `recv`s on the closed descriptor and closes it a
second time.  When `socketpair` fails, the handler closes the socket and
returns without `remove_connection`: the record stays in `connections[]`
and is never freed.  And since each pass reads what one `recv` returns, a
name line cut by the network registers the part that came first.
-/

namespace ChatServer.Lifecycle

open ChatServer.Basic ChatServer.Directory

/-! ## The handshake -/

/-- What one `recv` of the handshake returns. -/
inductive Received where
  /-- 0: the client closed the connection. -/
  | closed
  /-- A negative count: an error, as on a closed descriptor. -/
  | failed
  /-- The bytes received, 1 to 15 of them. -/
  | data (bytes : List Char)
  deriving DecidableEq, Repr

/-- The outcomes one pass of the handshake loop depends on. -/
structure Attempt where
  received : Received
  /-- Whether `calloc` returns a record, if the pass gets that far. -/
  allocates : Bool
  deriving DecidableEq, Repr

/-- The replies of the handshake. -/
inductive Reply where
  | invalidName
  | taken
  | serverFull
  | outOfMemory
  | accepted
  deriving DecidableEq, Repr

/-- The bytes `main` sends for each reply. -/
def Reply.text : Reply → List Char
  | .invalidName => "[ERROR] Username must be 1–16 alphanumeric characters.\n".toList
  | .taken => "[ERROR] Username already taken. Choose another.\n".toList
  | .serverFull => "[ERROR] Server is full. Try again later.\n".toList
  | .outOfMemory => "[ERROR] Server out of memory. Try later.\n".toList
  | .accepted => "[OK] Username accepted.\n".toList

/-- What the handling of one client does to the outside. -/
inductive Effect where
  /-- `send(client_fd, ...)`. -/
  | send (bytes : List Char)
  /-- `close(fd)`. -/
  | close (fd : Nat)
  /-- `connections[idx] = tmp` for the record `calloc` returned. -/
  | install (idx : Fin maxConn) (record : ConnPtr)
  /-- `free(*connection); *connection = NULL;` in `remove_connection`. -/
  | release (idx : Fin maxConn) (record : ConnPtr)
  deriving DecidableEq, Repr

/-- Where the handshake loop stands when the outcomes are used up. -/
inductive HandshakeEnd where
  /-- Still in `recv`. -/
  | waiting
  /-- `recv` returned 0 or less: the client was closed and no thread started. -/
  | dropped
  /-- The record `record` was installed in slot `idx`, giving the directory `table`. -/
  | installed (idx : Fin maxConn) (record : ConnPtr) (table : ConnTable)

/-- How one pass of the handshake loop ends. -/
inductive PassEnd where
  /-- An error reply, and `continue`. -/
  | again (effects : List Effect)
  /-- Out of the loop: by `break`, or with `handshake_ok = 1`. -/
  | leave (effects : List Effect) (ending : HandshakeEnd)

/-- One pass of `while (!handshake_ok)` for the client on `clientFd`. -/
def pass (clientFd : Nat) (d : ConnTable) (attempt : Attempt) : PassEnd :=
  match attempt.received with
  | .closed | .failed => .leave [.close clientFd] .dropped
  | .data bytes =>
      let name := handshakeName bytes
      if isValidUsername name = false then .again [.send Reply.invalidName.text]
      else if (findConnection name d).isSome then .again [.send Reply.taken.text]
      else
        match findFreeSlot d with
        | none => .again [.send Reply.serverFull.text]
        | some idx =>
            if attempt.allocates then
              .leave [.install idx d.nextConn, .send Reply.accepted.text]
                (.installed idx d.nextConn (installConnection idx name clientFd d))
            else .again [.send Reply.outOfMemory.text, .close clientFd]

/--
The handshake loop of `main` for the client on `clientFd`, over the
outcomes of its passes: the effects, and where the loop ends.
-/
def handshake (clientFd : Nat) (d : ConnTable) : List Attempt → List Effect × HandshakeEnd
  | [] => ([], .waiting)
  | attempt :: rest =>
      match pass clientFd d attempt with
      | .again effects =>
          let next := handshake clientFd d rest
          (effects ++ next.1, next.2)
      | .leave effects ending => (effects, ending)

/-! ### What one pass does -/

section Passes

variable {clientFd : Nat} {d : ConnTable}

theorem handshake_cons_again {attempt : Attempt} {rest : List Attempt} {effects : List Effect}
    (again : pass clientFd d attempt = .again effects) :
    handshake clientFd d (attempt :: rest) =
      (effects ++ (handshake clientFd d rest).1, (handshake clientFd d rest).2) := by
  simp only [handshake, again]

theorem handshake_cons_leave {attempt : Attempt} {rest : List Attempt} {effects : List Effect}
    {ending : HandshakeEnd} (leave : pass clientFd d attempt = .leave effects ending) :
    handshake clientFd d (attempt :: rest) = (effects, ending) := by
  simp only [handshake, leave]

theorem pass_of_failed (allocates : Bool) :
    pass clientFd d ⟨.failed, allocates⟩ = .leave [.close clientFd] .dropped := rfl

section Checked

variable {bytes : List Char} {idx : Fin maxConn}

/-- A valid name no session holds, `find_free_slot` returning `idx`, and `calloc` succeeding. -/
theorem pass_of_allocated (valid : isValidUsername (handshakeName bytes) = true)
    (absent : findConnection (handshakeName bytes) d = none) (free : findFreeSlot d = some idx) :
    pass clientFd d ⟨.data bytes, true⟩ =
      .leave [.install idx d.nextConn, .send Reply.accepted.text]
        (.installed idx d.nextConn (installConnection idx (handshakeName bytes) clientFd d)) := by
  unfold pass
  simp only [valid, absent, free, Option.isSome_none, Bool.true_eq_false, Bool.false_eq_true,
    if_false, if_true]

/-- The same pass with `calloc` returning NULL: an error reply, `close(client_fd)`, `continue`. -/
theorem pass_of_calloc_failed (valid : isValidUsername (handshakeName bytes) = true)
    (absent : findConnection (handshakeName bytes) d = none) (free : findFreeSlot d = some idx) :
    pass clientFd d ⟨.data bytes, false⟩ =
      .again [.send Reply.outOfMemory.text, .close clientFd] := by
  unfold pass
  simp only [valid, absent, free, Option.isSome_none, Bool.true_eq_false, Bool.false_eq_true,
    if_false]

end Checked

/-- What a pass can do when `calloc` succeeds: reply an error, drop the client, or install. -/
theorem pass_of_allocates {attempt : Attempt} (allocates : attempt.allocates = true) :
    (∃ reply, pass clientFd d attempt = .again [.send reply]) ∨
      pass clientFd d attempt = .leave [.close clientFd] .dropped ∨
      ∃ idx name, findFreeSlot d = some idx ∧
        pass clientFd d attempt = .leave [.install idx d.nextConn, .send Reply.accepted.text]
          (.installed idx d.nextConn (installConnection idx name clientFd d)) := by
  rcases attempt with ⟨_ | _ | bytes, flag⟩
  case closed | failed => exact .inr (.inl rfl)
  cases allocates
  unfold pass
  simp only [if_true]
  split_ifs
  · exact .inl ⟨_, rfl⟩
  · exact .inl ⟨_, rfl⟩
  · cases free : findFreeSlot d with
    | none => exact .inl ⟨_, rfl⟩
    | some idx => exact .inr (.inr ⟨idx, _, rfl, rfl⟩)

/--
With every `calloc` succeeding, the handshake sends error replies until it
is still waiting, drops the client with one `close`, or installs a record
in a free slot.
-/
theorem handshake_of_allocates {attempts : List Attempt}
    (allocating : ∀ attempt ∈ attempts, attempt.allocates = true) :
    ∃ replies : List (List Char),
      handshake clientFd d attempts = (replies.map .send, .waiting) ∨
      handshake clientFd d attempts = (replies.map .send ++ [.close clientFd], .dropped) ∨
      ∃ idx name, findFreeSlot d = some idx ∧
        handshake clientFd d attempts =
          (replies.map .send ++ [.install idx d.nextConn, .send Reply.accepted.text],
            .installed idx d.nextConn (installConnection idx name clientFd d)) := by
  induction attempts with
  | nil => exact ⟨[], .inl rfl⟩
  | cons attempt rest ih =>
      obtain ⟨replies, later⟩ := ih fun later mem => allocating later (.tail _ mem)
      rcases pass_of_allocates (allocating attempt (.head _)) with
        ⟨reply, again⟩ | dropped | ⟨idx, name, free, installed⟩
      · refine ⟨reply :: replies, ?_⟩
        rw [handshake_cons_again again]
        rcases later with waiting | dropped | ⟨idx, name, free, installed⟩
        · exact .inl (by rw [waiting]; rfl)
        · exact .inr (.inl (by rw [dropped]; rfl))
        · exact .inr (.inr ⟨idx, name, free, by rw [installed]; rfl⟩)
      · exact ⟨[], .inr (.inl (handshake_cons_leave dropped))⟩
      · exact ⟨[], .inr (.inr ⟨idx, name, free, handshake_cons_leave installed⟩)⟩

end Passes

/-! ## The handshake takes the supervisor's steps -/

/-- The state of `ChatServer.Directory` when the handshake loop stands at `ending`. -/
def HandshakeEnd.system (clientFd : Nat) (d : ConnTable) : HandshakeEnd → System
  | .waiting => ⟨d, .handshaking clientFd⟩
  | .dropped => ⟨d, .accepting⟩
  | .installed _ _ table => ⟨table, .accepting⟩

/-- The state of `ChatServer.Directory` after one pass. -/
def PassEnd.system (clientFd : Nat) (d : ConnTable) : PassEnd → System
  | .again _ => ⟨d, .handshaking clientFd⟩
  | .leave _ ending => ending.system clientFd d

section Steps

variable {clientFd : Nat} {d : ConnTable}

/-- Each pass is a run of the supervisor's steps, from `handshaking` to where the pass ends. -/
theorem pass_steps (attempt : Attempt) :
    Relation.ReflTransGen Step ⟨d, .handshaking clientFd⟩
      ((pass clientFd d attempt).system clientFd d) := by
  rcases attempt with ⟨_ | _ | bytes, allocates⟩
  case closed | failed => exact .single .recvFailed
  unfold pass
  dsimp only
  by_cases invalid : isValidUsername (handshakeName bytes) = false
  · rw [if_pos invalid]
    exact .single (.rejectInvalid bytes invalid)
  have valid : isValidUsername (handshakeName bytes) = true := by simpa using invalid
  rw [if_neg invalid]
  by_cases taken : (findConnection (handshakeName bytes) d).isSome
  · rw [if_pos taken]
    exact .single (.rejectTaken bytes valid taken)
  rw [if_neg taken]
  have checked : Relation.ReflTransGen Step ⟨d, .handshaking clientFd⟩
      ⟨d, .checked clientFd (handshakeName bytes)⟩ :=
    .single (.check bytes valid (by simpa using taken))
  cases free : findFreeSlot d with
  | none => exact checked.tail (.serverFull free)
  | some idx =>
      cases allocates with
      | false => exact (checked.tail (.findSlot free)).tail .callocFailed
      | true => exact (checked.tail (.findSlot free)).tail .install

/-- The whole loop is a run of the supervisor's steps. -/
theorem handshake_steps (attempts : List Attempt) :
    Relation.ReflTransGen Step ⟨d, .handshaking clientFd⟩
      ((handshake clientFd d attempts).2.system clientFd d) := by
  induction attempts with
  | nil => exact .refl
  | cons attempt rest ih =>
      have first := @pass_steps clientFd d attempt
      cases result : pass clientFd d attempt with
      | again effects =>
          rw [handshake_cons_again result]
          exact (result ▸ first).trans ih
      | leave effects ending =>
          rw [handshake_cons_leave result]
          rwa [result] at first

/-- Runs of steps keep the directory invariant. -/
theorem inv_of_steps {s s' : System} (inv : Inv s) (steps : Relation.ReflTransGen Step s s') :
    Inv s' := by
  induction steps with
  | refl => exact inv
  | tail _ step ih => exact ih.step step

/-- Wherever the handshake ends, the directory invariant of `ChatServer.Directory` holds. -/
theorem inv_after_handshake (inv : Inv ⟨d, .handshaking clientFd⟩) (attempts : List Attempt) :
    Inv ((handshake clientFd d attempts).2.system clientFd d) :=
  inv_of_steps inv (handshake_steps attempts)

end Steps

/-! ## The session -/

/--
`client_handler` for the record `record`, whose loop ends (by `/exit`, by
`recv`, `select` or `read` returning an error or end of file), given what
`socketpair` returns: the effects and the directory afterwards.  When
`socketpair` fails the handler closes the client's socket and returns; the
socket is read from the record.
-/
def session (record : ConnPtr) (d : ConnTable) (pair : Option (Nat × Nat)) :
    List Effect × ConnTable :=
  match d.heap record with
  | none => ([], d)
  | some r =>
      match pair with
      | none => ([.close r.sockfd], d)
      | some (notifyFd, notifyWriter) =>
          let stored := storeNotify record notifyFd notifyWriter d
          let closes := [.close r.sockfd, .close notifyFd, .close notifyWriter]
          match findSlotLocked r.username stored with
          | some idx =>
              match stored.connections idx with
              | some found => (closes ++ [.release idx found], stored.release idx found)
              | none => (closes, stored)
          | none => (closes, stored)

/-- The handling of one client from `accept` to the end of its session. -/
def lifecycle (clientFd : Nat) (d : ConnTable) (attempts : List Attempt)
    (pair : Option (Nat × Nat)) : List Effect :=
  match handshake clientFd d attempts with
  | (effects, .installed _ record table) => effects ++ (session record table pair).1
  | (effects, _) => effects

section Session

variable {d : ConnTable} {record : ConnPtr} {r : Connection}

/-- Without a socketpair the handler closes the socket and returns, releasing nothing. -/
theorem session_without_pair (live : d.heap record = some r) :
    session record d none = ([.close r.sockfd], d) := by
  simp only [session, live]

/--
With a socketpair, a session whose record sits in slot `idx` of a directory
with distinct usernames closes its three descriptors and releases that slot
and record.
-/
theorem session_with_pair {idx : Fin maxConn}
    (distinct : ∀ i j u, d.usernameAt i = some u → d.usernameAt j = some u → i = j)
    (slot : d.connections idx = some record) (live : d.heap record = some r)
    (notifyFd notifyWriter : Nat) :
    session record d (some (notifyFd, notifyWriter)) =
      ([.close r.sockfd, .close notifyFd, .close notifyWriter, .release idx record],
        (storeNotify record notifyFd notifyWriter d).release idx record) := by
  have named : d.usernameAt idx = some r.username := by
    simp [ConnTable.usernameAt, ConnTable.recordAt, slot, live]
  have found : findSlotLocked r.username (storeNotify record notifyFd notifyWriter d) = some idx :=
    findSlotLocked_eq_some (by rw [usernameAt_storeNotify]; exact named) fun other held =>
      (distinct idx other _ named (by rwa [usernameAt_storeNotify] at held)).le
  simp only [session, live, found, connections_storeNotify, slot, List.cons_append,
    List.nil_append]

end Session

/-! ## The failure paths -/

/--
The two failure paths of a client's handling.  When `calloc` fails in a
pass that reached it, `client_fd` is closed, the loop's next `recv` on the
closed descriptor fails, and `client_fd` is closed a second time.  When the
handshake installs a record and `socketpair` then fails, the handler only
closes the socket: the slot keeps the record and nothing is released.
-/
theorem lifecycle_mishandles_failures (clientFd : Nat) (d : ConnTable) (bytes : List Char)
    (idx : Fin maxConn) (valid : isValidUsername (handshakeName bytes) = true)
    (absent : findConnection (handshakeName bytes) d = none) (free : findFreeSlot d = some idx) :
    (lifecycle clientFd d [⟨.data bytes, false⟩, ⟨.failed, true⟩] none).count
        (.close clientFd) = 2 ∧
      lifecycle clientFd d [⟨.data bytes, true⟩] none =
        [.install idx d.nextConn, .send Reply.accepted.text, .close clientFd] := by
  have installed : (installConnection idx (handshakeName bytes) clientFd d).heap d.nextConn =
      some ⟨(handshakeName bytes).take (usernameLen - 1), clientFd, 0, 0⟩ := by
    simp [installConnection]
  constructor
  · rw [lifecycle, handshake_cons_again (pass_of_calloc_failed valid absent free),
      handshake_cons_leave (pass_of_failed true)]
    simp
  · rw [lifecycle, handshake_cons_leave (pass_of_allocated valid absent free)]
    simp only [session_without_pair installed, List.cons_append, List.nil_append]

/-- The directory and free slot of the witnesses: the server's start, with `connections[0]`. -/
theorem absent_at_initial (user : List Char) : findConnection user ConnTable.initial = none :=
  findConnection_eq_none.mpr fun _ => by
    simp [ConnTable.usernameAt, ConnTable.recordAt, ConnTable.initial]

theorem free_at_initial : findFreeSlot ConnTable.initial = some ⟨0, by decide⟩ :=
  firstFree_eq_some.mpr ⟨rfl, fun _ _ => Fin.zero_le _⟩

theorem lifecycle_mishandles_failures_for_bob :
    isValidUsername (handshakeName "bob\n".toList) = true ∧
      findConnection (handshakeName "bob\n".toList) ConnTable.initial = none ∧
      findFreeSlot ConnTable.initial = some ⟨0, by decide⟩ ∧
      (lifecycle 3 ConnTable.initial [⟨.data "bob\n".toList, false⟩, ⟨.failed, true⟩]
          none).count
        (.close 3) = 2 ∧
      lifecycle 3 ConnTable.initial [⟨.data "bob\n".toList, true⟩] none =
        [.install ⟨0, by decide⟩ 0, .send Reply.accepted.text, .close 3] :=
  ⟨by decide, absent_at_initial _, free_at_initial,
    lifecycle_mishandles_failures 3 ConnTable.initial _ _ (by decide) (absent_at_initial _)
      free_at_initial⟩

/-! ## The path without failures -/

/--
With every `calloc` and the `socketpair` succeeding, a client's handling
from a directory that satisfies the invariant sends error replies and then
still waits, or closes `client_fd` once, or runs a whole session: the
record goes into a free slot, and the socket, both notify descriptors, the
slot and the record are each closed or released once.
-/
theorem lifecycle_of_allocates (clientFd : Nat) (d : ConnTable)
    (inv : Inv ⟨d, .handshaking clientFd⟩) (attempts : List Attempt)
    (allocating : ∀ attempt ∈ attempts, attempt.allocates = true)
    (notifyFd notifyWriter : Nat) :
    ∃ replies : List (List Char),
      lifecycle clientFd d attempts (some (notifyFd, notifyWriter)) = replies.map .send ∨
      lifecycle clientFd d attempts (some (notifyFd, notifyWriter)) =
        replies.map .send ++ [.close clientFd] ∨
      ∃ idx, d.connections idx = none ∧
        lifecycle clientFd d attempts (some (notifyFd, notifyWriter)) =
          replies.map .send ++ [.install idx d.nextConn, .send Reply.accepted.text,
            .close clientFd, .close notifyFd, .close notifyWriter, .release idx d.nextConn] := by
  obtain ⟨replies, ending⟩ := @handshake_of_allocates clientFd d attempts allocating
  refine ⟨replies, ?_⟩
  rcases ending with waiting | dropped | ⟨idx, name, free, installed⟩
  · exact .inl (by rw [lifecycle, waiting])
  · exact .inr (.inl (by rw [lifecycle, dropped]))
  · have after : Inv ⟨installConnection idx name clientFd d, .accepting⟩ := by
      have := inv_after_handshake inv attempts
      rwa [installed] at this
    have slot : (installConnection idx name clientFd d).connections idx = some d.nextConn := by
      simp [installConnection]
    have live : (installConnection idx name clientFd d).heap d.nextConn =
        some ⟨name.take (usernameLen - 1), clientFd, 0, 0⟩ := by
      simp [installConnection]
    refine .inr (.inr ⟨idx, findFreeSlot_eq_some free, ?_⟩)
    rw [lifecycle, installed]
    simp only [session_with_pair after.names_distinct slot live, List.append_assoc,
      List.cons_append, List.nil_append]

/-- A fresh server's client that sends `bob` in one `recv`, with `calloc` succeeding. -/
theorem lifecycle_of_allocates_for_bob :
    Inv ⟨ConnTable.initial, .handshaking 3⟩ ∧
      (∀ attempt ∈ [(⟨.data "bob\n".toList, true⟩ : Attempt)], attempt.allocates = true) ∧
      ∃ replies : List (List Char),
        lifecycle 3 ConnTable.initial [⟨.data "bob\n".toList, true⟩] (some (4, 5)) =
          replies.map .send ∨
        lifecycle 3 ConnTable.initial [⟨.data "bob\n".toList, true⟩] (some (4, 5)) =
          replies.map .send ++ [.close 3] ∨
        ∃ idx, ConnTable.initial.connections idx = none ∧
          lifecycle 3 ConnTable.initial [⟨.data "bob\n".toList, true⟩] (some (4, 5)) =
            replies.map .send ++ [.install idx ConnTable.initial.nextConn,
              .send Reply.accepted.text, .close 3, .close 4, .close 5,
              .release idx ConnTable.initial.nextConn] :=
  have inv : Inv ⟨ConnTable.initial, .handshaking 3⟩ :=
    inv_of_reachable (.step .initial (.accept 3))
  have allocating : ∀ attempt ∈ [(⟨.data "bob\n".toList, true⟩ : Attempt)],
      attempt.allocates = true := by
    simp
  ⟨inv, allocating, lifecycle_of_allocates 3 ConnTable.initial inv _ allocating 4 5⟩

/-! ## Names cut by the network -/

/-- A piece of alphanumeric characters is the name `main` checks, unchanged. -/
theorem handshakeName_of_isAlphanum {bytes : List Char}
    (alnum : ∀ c ∈ bytes, c.isAlphanum = true) : handshakeName bytes = bytes := by
  have noNewline : bytes.getLast? ≠ some '\n' := fun last =>
    absurd (alnum _ (List.mem_of_getLast?_eq_some last)) (by decide)
  unfold handshakeName
  rw [if_neg noNewline]
  refine List.takeWhile_eq_self_iff.mpr fun c mem => decide_eq_true fun nul => ?_
  exact absurd (nul ▸ alnum c mem) (by decide)

/--
Each pass checks what one `recv` returned.  When the line `name\n` arrives
cut after a non-empty proper prefix `first` of the name, the first pass
accepts and installs `first`, and the rest of the line stays unread.  A
name of 16 characters is always cut so, as one `recv` takes at most 15
bytes.
-/
theorem handshake_registers_prefix (clientFd : Nat) (d : ConnTable)
    (name first rest : List Char) (alnum : ∀ c ∈ name, c.isAlphanum = true)
    (fits : name.length ≤ 16) (split : first ++ rest = name ++ ['\n']) (nonempty : first ≠ [])
    (proper : first.length < name.length) (absent : findConnection first d = none)
    (idx : Fin maxConn) (free : findFreeSlot d = some idx) (later : List Attempt) :
    handshake clientFd d (⟨.data first, true⟩ :: later) =
        ([.install idx d.nextConn, .send Reply.accepted.text],
          .installed idx d.nextConn (installConnection idx first clientFd d)) ∧
      (installConnection idx first clientFd d).usernameAt idx = some first ∧ first ≠ name := by
  have leading : List.IsPrefix first name :=
    List.prefix_of_prefix_length_le ⟨rest, split⟩ (List.prefix_append name ['\n']) proper.le
  have alnumFirst : ∀ c ∈ first, c.isAlphanum = true :=
    fun c mem => alnum c (leading.subset mem)
  have named := handshakeName_of_isAlphanum alnumFirst
  have valid : isValidUsername first = true :=
    isValidName_iff.mpr ⟨List.length_pos.mpr nonempty, by unfold usernameLen; omega, alnumFirst⟩
  refine ⟨?_, ?_, fun same => absurd proper (by rw [same]; exact lt_irrefl _)⟩
  · rw [← named] at valid absent
    rw [handshake_cons_leave (pass_of_allocated valid absent free), named]
  · simp [ConnTable.usernameAt, ConnTable.recordAt, installConnection, take_of_valid valid]

theorem handshake_registers_ab_of_abc :
    (∀ c ∈ "abc".toList, c.isAlphanum = true) ∧ "abc".toList.length ≤ 16 ∧
      "ab".toList ++ "c\n".toList = "abc".toList ++ ['\n'] ∧ "ab".toList ≠ [] ∧
      "ab".toList.length < "abc".toList.length ∧
      findConnection "ab".toList ConnTable.initial = none ∧
      findFreeSlot ConnTable.initial = some ⟨0, by decide⟩ ∧
      handshake 3 ConnTable.initial [⟨.data "ab".toList, true⟩] =
          ([.install ⟨0, by decide⟩ 0, .send Reply.accepted.text],
            .installed ⟨0, by decide⟩ 0
              (installConnection ⟨0, by decide⟩ "ab".toList 3 ConnTable.initial)) ∧
        (installConnection ⟨0, by decide⟩ "ab".toList 3 ConnTable.initial).usernameAt
            ⟨0, by decide⟩ = some "ab".toList ∧
        "ab".toList ≠ "abc".toList :=
  ⟨by decide, by decide, by decide, by decide, by decide, absent_at_initial _, free_at_initial,
    handshake_registers_prefix 3 ConnTable.initial "abc".toList "ab".toList "c\n".toList
      (by decide) (by decide) (by decide) (by decide) (by decide) (absent_at_initial _) _
      free_at_initial []⟩

end ChatServer.Lifecycle
