import ChatServer.Directory
import ChatServer.Shutdown

/-!
# A session's teardown removes its own slot

`client_handler` ends by copying its record's username into `removed_user`
and calling `remove_connection(removed_user)`.  That function takes the slot
`find_slot_locked` returns; when no slot holds the name, its log line reads
`(*connection)->thread_info.tid` through the NULL slot pointer.

The only writers of `connections[]` are `main`'s insertion, into a slot that
`find_free_slot` found NULL, and `remove_connection`, which clears the slot it
found.  So every allocated record sits in a slot (`Housed`), over every
interleaving of `ChatServer.Directory.Step`; with usernames distinct, the
slot holding a session's name is the one holding its record.  `main`'s
shutdown loops only read the directory, and a handler's teardown there is a
`Step.remove`, so the same holds while the server shuts down.
-/

namespace ChatServer.Teardown

open ChatServer.Basic ChatServer.Directory ChatServer.Shutdown

/-- Every allocated session record sits in a slot of `connections[]`. -/
structure Housed (d : ConnTable) : Prop where
  slotted : ∀ p, (d.heap p).isSome → ∃ index, d.connections index = some p

section Preservation

variable {d : ConnTable}

theorem housed_initial : Housed ConnTable.initial :=
  ⟨fun _ live => by simp [ConnTable.initial] at live⟩

theorem Housed.install (housed : Housed d) {idx : Fin maxConn} {name : List Char}
    {clientFd : Nat} (free : d.connections idx = none) :
    Housed (installConnection idx name clientFd d) := by
  refine ⟨fun p live => ?_⟩
  by_cases fresh : p = d.nextConn
  · exact ⟨idx, by simp [installConnection, fresh]⟩
  · obtain ⟨index, held⟩ :=
      housed.slotted p (by simpa [installConnection, Function.update_noteq fresh] using live)
    have apart : index ≠ idx := by rintro rfl; simp [free] at held
    exact ⟨index, by simp [installConnection, Function.update_noteq apart, held]⟩

theorem Housed.remove (housed : Housed d) {user : List Char} {d' : ConnTable}
    (removed : removeConnection user d = some d') : Housed d' := by
  obtain ⟨index, record, held, -, rfl⟩ := removeConnection_eq_some removed
  refine ⟨fun p live => ?_⟩
  have other : p ≠ record := by rintro rfl; simp [ConnTable.release] at live
  obtain ⟨j, held'⟩ :=
    housed.slotted p (by simpa [ConnTable.release, Function.update_noteq other] using live)
  have apart : j ≠ index := by rintro rfl; exact other (Option.some.inj (held'.symm.trans held))
  exact ⟨j, by simp [ConnTable.release, Function.update_noteq apart, held']⟩

theorem Housed.storeNotify (housed : Housed d) (record : ConnPtr) (notifyFd notifyWriter : Nat) :
    Housed (ChatServer.Directory.storeNotify record notifyFd notifyWriter d) := by
  refine ⟨fun p live => housed.slotted p ?_⟩
  by_cases same : p = record
  · subst same
    simpa [ChatServer.Directory.storeNotify] using live
  · simpa [ChatServer.Directory.storeNotify, Function.update_noteq same] using live

theorem Housed.step {s s' : System} (inv : Inv s) (housed : Housed s.dir) (step : Step s s') :
    Housed s'.dir := by
  cases step with
  | install => exact housed.install (inv.pending_free _ rfl)
  | storeNotify notifyFd notifyWriter => exact housed.storeNotify _ notifyFd notifyWriter
  | remove _ removed => exact housed.remove removed
  | _ => exact housed

end Preservation

theorem housed_of_reachable {s : System} (reachable : Reachable s) : Housed s.dir := by
  induction reachable with
  | initial => exact housed_initial
  | step reachable step housed => exact housed.step (inv_of_reachable reachable) step

/-- `main`'s shutdown and the handlers' teardowns are directory steps under `accept`'s exit. -/
theorem reachable_of_run {table : ConnTable} {supervisor : Supervisor}
    (reachable : Reachable ⟨table, supervisor⟩) {events : List Event} {s : ShutdownState}
    (run : Run (ShutdownState.start table) events s) : Reachable ⟨s.table, supervisor⟩ := by
  induction run with
  | nil => exact reachable
  | snoc _ _ applied reached =>
      rcases apply_table applied with same | ⟨_, _, live, removed⟩
      · rwa [same]
      · exact reached.step (.remove live removed)

/-- The directories the server passes through: while it accepts, and while it shuts down. -/
inductive Live : ConnTable → Prop
  | running {s : System} : Reachable s → Live s.dir
  | shutdown {table : ConnTable} {events : List Event} {s : ShutdownState} :
      Reachable ⟨table, .accepting⟩ → Run (ShutdownState.start table) events s →
        Live s.table

theorem Live.reachable {d : ConnTable} (live : Live d) :
    ∃ s : System, Reachable s ∧ s.dir = d := by
  cases live with
  | running reachable => exact ⟨_, reachable, rfl⟩
  | shutdown reachable run => exact ⟨_, reachable_of_run reachable run, rfl⟩

/--
`remove_connection(user)` called for the session at `record`: `find_slot_locked`
returns a slot holding that very record, which is cleared, and only that
record is freed.
-/
def RemovesOwn (d : ConnTable) (record : ConnPtr) (user : List Char) : Prop :=
  ∃ index, findSlotLocked user d = some index ∧ d.connections index = some record ∧
    removeConnection user d = some (d.release index record)

/-- In a directory with distinct names, a housed record's name leads back to its own slot. -/
theorem removesOwn_of_housed {s : System} (inv : Inv s) (housed : Housed s.dir)
    {record : ConnPtr} {r : Connection} (held : s.dir.heap record = some r) :
    RemovesOwn s.dir record r.username := by
  obtain ⟨index, slot⟩ := housed.slotted record (by simp [held])
  have named : s.dir.usernameAt index = some r.username := by
    simp [ConnTable.usernameAt, ConnTable.recordAt, slot, held]
  have found : findSlotLocked r.username s.dir = some index :=
    findSlotLocked_eq_some named fun other named' =>
      (inv.names_distinct other index _ named' named).ge
  exact ⟨index, found, slot, removeConnection_of_found found slot⟩

/--
Over every interleaving of handshakes, sessions and shutdown, a session's
`remove_connection` finds its own record's slot: the not-found branch is never
taken and no other session's record is freed.
-/
theorem teardown_removes_own_slot {d : ConnTable} (live : Live d) {record : ConnPtr}
    {r : Connection} (held : d.heap record = some r) : RemovesOwn d record r.username := by
  obtain ⟨s, reachable, rfl⟩ := live.reachable
  exact removesOwn_of_housed (inv_of_reachable reachable) (housed_of_reachable reachable) held

theorem teardown_removes_own_slot_after_first_login :
    Live afterFirstLogin.dir ∧ afterFirstLogin.dir.heap 0 = some ⟨['a'], 3, 0, 0⟩ ∧
      RemovesOwn afterFirstLogin.dir 0 ['a'] :=
  have held : afterFirstLogin.dir.heap 0 = some ⟨['a'], 3, 0, 0⟩ := rfl
  ⟨.running reachable_afterFirstLogin, held,
    @teardown_removes_own_slot _ (.running reachable_afterFirstLogin) 0 ⟨['a'], 3, 0, 0⟩ held⟩

end ChatServer.Teardown
