import ChatServer.Lifecycle

/-!
# The username handshake, from both ends

The client's `main` reads a name with `fgets(client_username, 16, stdin)`,
sends `strlen(client_username)` bytes of it, cuts its final newline, and
waits for the server's reply with one `recv`; it goes on to the chat once
the reply begins with `[OK]`, and otherwise reads another name.  The
server's `main` runs one pass of its handshake loop (`ChatServer.Lifecycle`)
on what its `recv` returns, and replies.

This module runs the two loops against each other, one round per name, with
the network delivering each name whole to the server's `recv` and the first
`seen` bytes of each reply to the client's.  `fgets` stores at most 15
characters, exactly what one `recv` of the server takes.  When each reply
arrives with at least its first four bytes, the two sides never disagree on
whether the name was accepted, and the name the client keeps for itself is
the one the server registered.  A line that begins with a NUL makes the
client send nothing, and both sides then wait in `recv`.
-/

namespace ChatServer.ClientHandshake

open ChatServer.Basic ChatServer.Directory ChatServer.Lifecycle

/-! ## The client's side -/

/--
`fgets` into a buffer with room for `room` characters: the characters
through the first newline, at most `room` of them, and the input left.
-/
def fgetsLine : Nat → List Char → List Char × List Char
  | 0, input => ([], input)
  | _ + 1, [] => ([], [])
  | room + 1, c :: rest =>
      if c = '\n' then (['\n'], rest)
      else (c :: (fgetsLine room rest).1, (fgetsLine room rest).2)

/-- `fgets(buf, size, stdin)`: `NULL` at the end of the input. -/
def fgets (size : Nat) (input : List Char) : Option (List Char × List Char) :=
  if input = [] then none else some (fgetsLine (size - 1) input)

/-- The characters of a buffer up to its first NUL: what `strlen` counts. -/
def cString (buffer : List Char) : List Char :=
  buffer.takeWhile (· ≠ Char.ofNat 0)

/-- `client_username` once `client_username[len-1] = '\0'` cut a final newline. -/
def stripNewline (name : List Char) : List Char :=
  if name.getLast? = some '\n' then name.dropLast else name

/-- `strncmp(buf, "[OK]", 4) == 0` for the reply bytes in `buf`, NUL-terminated. -/
def acceptsReply (buf : List Char) : Bool :=
  "[OK]".toList.isPrefixOf (cString buf)

/-- The bytes a list of the server's effects sends. -/
def sentBytes : List Effect → List Char
  | [] => []
  | .send bytes :: effects => bytes ++ sentBytes effects
  | _ :: effects => sentBytes effects

/-! ## Both sides -/

/-- Where the two handshakes stand after a round. -/
inductive Joint where
  /-- Both sides go round again; the client has `input` left to read. -/
  | going (input : List Char)
  /-- `fgets` returned `NULL`: the client closes its socket and exits. -/
  | endOfInput
  /-- The client sent no byte, and both sides wait in `recv`. -/
  | bothWaiting
  /-- The server closed `client_fd`: the client's next `recv` fails. -/
  | serverClosed
  /-- The server installed `name` in slot `idx`, giving `table`, and the client accepted. -/
  | agreed (name : List Char) (idx : Fin maxConn) (table : ConnTable)
  /-- The client took an error reply for an acceptance. -/
  | clientAhead
  /-- The server installed the client, which took the reply for an error. -/
  | serverAhead

/--
One round: the client's `fgets` and `send`, the server's pass on the bytes,
which its `recv` receives whole, and the client's `recv` of the first `seen`
bytes of the reply.
-/
def round (clientFd : Nat) (d : ConnTable) (input : List Char) (allocates : Bool) (seen : Nat) :
    Joint :=
  match fgets usernameLen input with
  | none => .endOfInput
  | some (line, rest) =>
      let sent := cString line
      if sent = [] then .bothWaiting
      else
        match Lifecycle.pass clientFd d ⟨.data sent, allocates⟩ with
        | .again effects =>
            if acceptsReply ((sentBytes effects).take seen) then .clientAhead
            else if Effect.close clientFd ∈ effects then .serverClosed
            else .going rest
        | .leave effects (.installed idx _ table) =>
            if acceptsReply ((sentBytes effects).take seen) then
              .agreed (stripNewline sent) idx table
            else .serverAhead
        | .leave _ _ => .serverClosed

/-- The rounds, each with `calloc`'s outcome and the number of bytes the client's `recv` gets. -/
def joint (clientFd : Nat) (d : ConnTable) : List Char → List (Bool × Nat) → Joint
  | input, [] => .going input
  | input, (allocates, seen) :: rounds =>
      match round clientFd d input allocates seen with
      | .going rest => joint clientFd d rest rounds
      | ended => ended

/-! ## The client's buffer and the server's `recv` -/

/-- The server strips what the client strips: the name it checks is the client's. -/
theorem handshakeName_cString (line : List Char) :
    handshakeName (cString line) = stripNewline (cString line) := by
  unfold handshakeName stripNewline cString
  refine List.takeWhile_eq_self_iff.mpr fun c member => decide_eq_true ?_
  have kept : c ∈ line.takeWhile (· ≠ Char.ofNat 0) := by
    split_ifs at member
    · exact List.dropLast_subset _ member
    · exact member
  simpa using List.mem_takeWhile_imp kept

/-! ## The replies -/

theorem acceptsReply_starts {buf : List Char} (accepted : acceptsReply buf = true) :
    "[OK]".toList <+: buf :=
  (List.isPrefixOf_iff_prefix.mp accepted).trans (List.takeWhile_prefix _)

/-- No error reply of the handshake is taken for an acceptance, however it is cut. -/
theorem acceptsReply_error {reply : Reply} (error : reply ≠ .accepted) (seen : Nat) :
    acceptsReply (reply.text.take seen) = false := by
  refine Bool.eq_false_iff.mpr fun accepted => ?_
  have starts := (acceptsReply_starts accepted).trans (List.take_prefix _ _)
  cases reply <;> first | exact error rfl | exact absurd starts (by decide)

/-- The acceptance is taken as one once its first four bytes are in. -/
theorem acceptsReply_accepted {seen : Nat} (whole : 4 ≤ seen) :
    acceptsReply (Reply.accepted.text.take seen) = true := by
  have head : (Reply.accepted.text.take seen).take 4 = "[OK]".toList := by
    rw [List.take_take, Nat.min_eq_left whole]; rfl
  have clean : cString (Reply.accepted.text.take seen) = Reply.accepted.text.take seen :=
    List.takeWhile_eq_self_iff.mpr fun c member =>
      decide_eq_true fun nul => absurd (nul ▸ List.mem_of_mem_take member) (by decide)
  rw [acceptsReply, clean, List.isPrefixOf_iff_prefix, List.prefix_iff_eq_take]
  exact head.symm

/-! ## The server's pass on a name -/

section Pass

variable {clientFd : Nat} {d : ConnTable} {bytes : List Char} {allocates : Bool}

/--
A pass on received bytes: an error reply, then perhaps `close(client_fd)`;
or the installation.
-/
theorem pass_data_cases :
    (∃ reply : Reply, reply ≠ .accepted ∧
      (Lifecycle.pass clientFd d ⟨.data bytes, allocates⟩ = .again [.send reply.text] ∨
        Lifecycle.pass clientFd d ⟨.data bytes, allocates⟩ =
          .again [.send reply.text, .close clientFd])) ∨
      ∃ idx, isValidUsername (handshakeName bytes) = true ∧
        Lifecycle.pass clientFd d ⟨.data bytes, allocates⟩ =
          .leave [.install idx d.nextConn, .send Reply.accepted.text]
            (.installed idx d.nextConn
              (installConnection idx (handshakeName bytes) clientFd d)) := by
  by_cases invalid : isValidUsername (handshakeName bytes) = false
  · exact .inl ⟨.invalidName, nofun, .inl (by unfold Lifecycle.pass; exact if_pos invalid)⟩
  by_cases taken : (findConnection (handshakeName bytes) d).isSome = true
  · exact .inl ⟨.taken, nofun,
      .inl (by unfold Lifecycle.pass; exact (if_neg invalid).trans (if_pos taken))⟩
  have valid : isValidUsername (handshakeName bytes) = true := by simpa using invalid
  have absent : findConnection (handshakeName bytes) d = none := by simpa using taken
  cases free : findFreeSlot d with
  | none =>
      exact .inl ⟨.serverFull, nofun, .inl (by
        unfold Lifecycle.pass
        simp only [valid, absent, free, Option.isSome_none, Bool.true_eq_false,
          Bool.false_eq_true, if_false])⟩
  | some idx =>
      cases allocates
      · exact .inl ⟨.outOfMemory, nofun, .inr (pass_of_calloc_failed valid absent free)⟩
      · exact .inr ⟨idx, valid, pass_of_allocated valid absent free⟩

end Pass

/-! ## The rounds -/

/-- What a round with a reply received from its fourth byte on can end in. -/
theorem round_agrees (clientFd : Nat) (d : ConnTable) (input : List Char) (allocates : Bool)
    {seen : Nat} (whole : 4 ≤ seen) :
    round clientFd d input allocates seen ≠ .clientAhead ∧
      round clientFd d input allocates seen ≠ .serverAhead ∧
      ∀ name idx table, round clientFd d input allocates seen = .agreed name idx table →
        table.usernameAt idx = some name := by
  unfold round
  split
  · exact ⟨nofun, nofun, nofun⟩
  next line rest read =>
    dsimp only
    split_ifs
    · exact ⟨nofun, nofun, nofun⟩
    rcases @pass_data_cases clientFd d (cString line) allocates with
      ⟨reply, error, again | again⟩ | ⟨idx, valid, installed⟩
    · simp only [again, sentBytes, List.append_nil, acceptsReply_error error, Bool.false_eq_true,
        if_false]
      split_ifs <;> exact ⟨nofun, nofun, nofun⟩
    · simp only [again, sentBytes, List.append_nil, acceptsReply_error error, Bool.false_eq_true,
        if_false]
      split_ifs <;> exact ⟨nofun, nofun, nofun⟩
    · simp only [installed, sentBytes, List.append_nil, acceptsReply_accepted whole, if_true]
      refine ⟨nofun, nofun, fun name index table agreed => ?_⟩
      obtain ⟨rfl, rfl, rfl⟩ := Joint.agreed.inj agreed
      rw [← handshakeName_cString]
      simp [ConnTable.usernameAt, ConnTable.recordAt, installConnection, take_of_valid valid]

/--
When each reply reaches the client with at least its first four bytes, the
client and the server never disagree on whether a name was accepted, and
when both have finished, the name the client keeps as `client_username` is
the name the server registered in the slot it took.
-/
theorem handshake_sides_agree (clientFd : Nat) (d : ConnTable) (input : List Char)
    (rounds : List (Bool × Nat)) (whole : ∀ r ∈ rounds, 4 ≤ r.2) :
    joint clientFd d input rounds ≠ .clientAhead ∧
      joint clientFd d input rounds ≠ .serverAhead ∧
        ∀ name idx table, joint clientFd d input rounds = .agreed name idx table →
          table.usernameAt idx = some name := by
  induction rounds generalizing input with
  | nil => exact ⟨nofun, nofun, nofun⟩
  | cons r rounds ih =>
      obtain ⟨allocates, seen⟩ := r
      have agrees := round_agrees clientFd d input allocates (whole _ (List.mem_cons_self _ _))
      unfold joint
      split
      next rest going => exact ih rest fun r member => whole r (List.mem_cons_of_mem _ member)
      next ended other => exact agrees

theorem handshake_sides_agree_for_amy :
    (∀ r ∈ [((true, 24) : Bool × Nat)], 4 ≤ r.2) ∧
      joint 3 ConnTable.initial "amy\n".toList [(true, 24)] ≠ .clientAhead ∧
      joint 3 ConnTable.initial "amy\n".toList [(true, 24)] ≠ .serverAhead ∧
      ∀ name idx table,
        joint 3 ConnTable.initial "amy\n".toList [(true, 24)] = .agreed name idx table →
          table.usernameAt idx = some name :=
  have whole : ∀ r ∈ [((true, 24) : Bool × Nat)], 4 ≤ r.2 := by decide
  ⟨whole, handshake_sides_agree 3 ConnTable.initial "amy\n".toList [(true, 24)] whole⟩

end ChatServer.ClientHandshake
