import ChatServer.Basic
import Mathlib.Data.Nat.ModEq

/-!
# The bounded upload queue

`file_queue.c` implements the upload queue as a ring buffer: an array of
`capacity` items with `head`, `tail` and `count`, every operation running as
one critical section under `q->mutex`.  The blocking operations wait on a
condition variable until their guard fails; a call therefore takes effect in
one atomic step, and only in a state where its wait condition is false.

This module models the four operations on the ring buffer and proves that it
refines a bounded FIFO list: the view
`α(q) = [buffer[(head + i) mod capacity] | i < count]` moves exactly as an
abstract bounded queue does, each concrete call is enabled exactly when the
abstract one is, and along every run the dequeued items followed by the
queued ones are the enqueued items.

The ring is generic in its items; the server stores `file_item_t` records,
whose payload buffer is a heap allocation named by a number.
-/

namespace ChatServer.FileQueue

open ChatServer.Basic

/-- `file_item_t`; the payload buffer `data` is NULL or a heap allocation. -/
structure FileItem where
  filename : List Char
  size : Nat
  data : Option Nat
  sender : List Char
  target : List Char
  isSentinel : Bool
  deriving DecidableEq, Repr

/-- The all-zero item of `calloc` and of `file_item_t sentinel = {0}`. -/
def FileItem.zero : FileItem :=
  ⟨[], 0, none, [], [], false⟩

/-- `file_queue_t` without its mutex and condition variables. -/
structure Queue (α : Type) where
  buffer : Nat → α
  capacity : Nat
  head : Nat
  tail : Nat
  count : Nat

variable {α : Type}

/-- `file_queue_init`: a zeroed buffer, `head = tail = count = 0`. -/
def fileQueueInit (capacity : Nat) (zero : α) : Queue α :=
  ⟨fun _ => zero, capacity, 0, 0, 0⟩

/-- The store shared by both enqueue operations: write at `tail`, advance it, count. -/
def Queue.put (q : Queue α) (item : α) : Queue α :=
  { q with
    buffer := Function.update q.buffer q.tail item
    tail := (q.tail + 1) % q.capacity
    count := q.count + 1 }

/-- `file_queue_try_enqueue`: store when `count < capacity`, and report whether it did. -/
def fileQueueTryEnqueue (q : Queue α) (item : α) : Queue α × Bool :=
  if q.count < q.capacity then (q.put item, true) else (q, false)

/--
`file_queue_enqueue` once its wait has ended: `none` while `count == capacity`
(the caller is blocked), otherwise the queue after the store.
-/
def fileQueueEnqueue (q : Queue α) (item : α) : Option (Queue α) :=
  if q.count = q.capacity then none else some (q.put item)

/-- The update of `file_queue_dequeue`: advance `head`, decrement `count`. -/
def Queue.take (q : Queue α) : Queue α :=
  { q with head := (q.head + 1) % q.capacity, count := q.count - 1 }

/--
`file_queue_dequeue` once its wait has ended: `none` while `count == 0`,
otherwise the queue after the update, with the item read at `head`.
-/
def fileQueueDequeue (q : Queue α) : Option (Queue α × α) :=
  if q.count = 0 then none else some (q.take, q.buffer q.head)

/-- `file_queue_is_full`. -/
def fileQueueIsFull (q : Queue α) : Bool :=
  q.count == q.capacity

/--
`file_queue_destroy`: the `data` pointers it frees, slot by slot over the
whole buffer, `buffer[0]` to `buffer[capacity - 1]`.
-/
def fileQueueDestroy (q : Queue FileItem) : List Nat :=
  (List.range q.capacity).filterMap fun i => (q.buffer i).data

/-! ## The FIFO view -/

/-- `α(q)`: the `count` items from `head` on, wrapping at `capacity`. -/
def contents (q : Queue α) : List α :=
  (List.range q.count).map fun i => q.buffer ((q.head + i) % q.capacity)

@[simp]
theorem length_contents (q : Queue α) : (contents q).length = q.count := by
  simp [contents]

/-- The ring's shape: a positive capacity, `head` in range, `tail` after the items. -/
structure Queue.WellFormed (q : Queue α) : Prop where
  capacity_pos : 0 < q.capacity
  head_lt : q.head < q.capacity
  tail_eq : q.tail = (q.head + q.count) % q.capacity
  count_le : q.count ≤ q.capacity

theorem wellFormed_init {capacity : Nat} (positive : 0 < capacity) (zero : α) :
    (fileQueueInit capacity zero).WellFormed :=
  ⟨positive, positive, by simp [fileQueueInit], Nat.zero_le _⟩

/-- Two offsets below the capacity land on different slots. -/
theorem mod_ne_of_lt {head a b capacity : Nat} (smaller : a < b) (below : b < capacity) :
    (head + a) % capacity ≠ (head + b) % capacity := by
  intro same
  have cancelled := Nat.ModEq.add_left_cancel' head same
  unfold Nat.ModEq at cancelled
  rw [Nat.mod_eq_of_lt (smaller.trans below), Nat.mod_eq_of_lt below] at cancelled
  omega

section Put

variable {q : Queue α}

/-- A store at `tail` into a ring with room appends to the view. -/
theorem contents_put (wf : q.WellFormed) (room : q.count < q.capacity) (item : α) :
    contents (q.put item) = contents q ++ [item] := by
  simp only [contents, Queue.put, List.range_succ, List.map_append, List.map_cons,
    List.map_nil, wf.tail_eq, Function.update_same]
  congr 1
  refine List.map_congr_left fun i member => ?_
  rw [Function.update_noteq (mod_ne_of_lt (List.mem_range.mp member) room)]

theorem Queue.WellFormed.put (wf : q.WellFormed) (room : q.count < q.capacity) (item : α) :
    (q.put item).WellFormed := by
  refine ⟨wf.capacity_pos, wf.head_lt, ?_, room⟩
  simp only [Queue.put, wf.tail_eq, Nat.mod_add_mod]
  rfl

end Put

section Take

variable {q : Queue α}

theorem fileQueueDequeue_eq (nonempty : q.count ≠ 0) :
    fileQueueDequeue q = some (q.take, q.buffer q.head) := by
  simp [fileQueueDequeue, nonempty]

/-- Taking the head of a non-empty ring removes the first element of the view. -/
theorem contents_take (wf : q.WellFormed) (nonempty : q.count ≠ 0) :
    contents q = q.buffer q.head :: contents q.take := by
  obtain ⟨rest, counted⟩ := Nat.exists_eq_succ_of_ne_zero nonempty
  simp only [contents, Queue.take, counted, List.range_succ_eq_map, List.map_cons,
    List.map_map, Nat.add_zero, Nat.mod_eq_of_lt wf.head_lt, Nat.succ_sub_one]
  congr 1
  refine List.map_congr_left fun i _ => ?_
  simp only [Function.comp, Nat.mod_add_mod, Nat.succ_eq_add_one]
  rw [Nat.add_assoc, Nat.add_comm 1 i]

theorem Queue.WellFormed.take (wf : q.WellFormed) (nonempty : q.count ≠ 0) :
    q.take.WellFormed := by
  refine ⟨wf.capacity_pos, Nat.mod_lt _ wf.capacity_pos, ?_,
    Nat.le_trans (Nat.sub_le _ 1) wf.count_le⟩
  simp only [Queue.take, wf.tail_eq, Nat.mod_add_mod]
  congr 1
  omega

end Take

/-! ## Interleaved calls and the bounded FIFO -/

/-- What one call does, as its caller observes it. -/
inductive QueueEvent (α : Type) where
  | tryEnqueued (item : α) (stored : Bool)
  | enqueued (item : α)
  | dequeued (item : α)
  deriving DecidableEq, Repr

/-- The items a call stores. -/
def QueueEvent.stored : QueueEvent α → List α
  | .tryEnqueued item true => [item]
  | .tryEnqueued _ false => []
  | .enqueued item => [item]
  | .dequeued _ => []

/-- The items a call hands to its caller. -/
def QueueEvent.taken : QueueEvent α → List α
  | .dequeued item => [item]
  | _ => []

/--
One call taking effect under `q->mutex`.  Calls of any number of threads
interleave only between critical sections, and a blocking call takes effect
only in a state where its wait condition is false.
-/
inductive Step : Queue α → QueueEvent α → Queue α → Prop
  | tryEnqueue {q q' : Queue α} {item : α} {stored : Bool}
      (called : fileQueueTryEnqueue q item = (q', stored)) :
      Step q (.tryEnqueued item stored) q'
  | enqueue {q q' : Queue α} {item : α} (stored : fileQueueEnqueue q item = some q') :
      Step q (.enqueued item) q'
  | dequeue {q q' : Queue α} {item : α} (taken : fileQueueDequeue q = some (q', item)) :
      Step q (.dequeued item) q'

/-- The interleavings of calls from a starting queue, with what each call did. -/
inductive Run (start : Queue α) : List (QueueEvent α) → Queue α → Prop
  | nil : Run start [] start
  | snoc {events : List (QueueEvent α)} {q q' : Queue α} {event : QueueEvent α} :
      Run start events q → Step q event q' → Run start (events ++ [event]) q'

/-- The bounded FIFO of capacity `capacity` the ring stands for. -/
inductive FifoStep (capacity : Nat) : List α → QueueEvent α → List α → Prop
  | tryStored {items : List α} {item : α} (room : items.length < capacity) :
      FifoStep capacity items (.tryEnqueued item true) (items ++ [item])
  | tryRefused {items : List α} {item : α} (full : capacity ≤ items.length) :
      FifoStep capacity items (.tryEnqueued item false) items
  | enqueue {items : List α} {item : α} (room : items.length < capacity) :
      FifoStep capacity items (.enqueued item) (items ++ [item])
  | dequeue {item : α} {items : List α} :
      FifoStep capacity (item :: items) (.dequeued item) items

/-- An abstract step moves the taken items out of the front and the stored ones in behind. -/
theorem FifoStep.conserves {capacity : Nat} {items items' : List α} {event : QueueEvent α}
    (step : FifoStep capacity items event items') :
    event.taken ++ items' = items ++ event.stored := by
  cases step <;> simp [QueueEvent.taken, QueueEvent.stored]

section Simulation

variable {q q' : Queue α} {event : QueueEvent α}

theorem Step.capacity_eq (step : Step q event q') : q'.capacity = q.capacity := by
  cases step with
  | tryEnqueue called =>
      simp only [fileQueueTryEnqueue] at called
      split_ifs at called <;> cases called <;> rfl
  | enqueue stored =>
      simp only [fileQueueEnqueue] at stored
      split_ifs at stored
      cases stored
      rfl
  | dequeue taken =>
      simp only [fileQueueDequeue] at taken
      split_ifs at taken
      cases taken
      rfl

/-- Every call keeps the ring well formed and moves its view as the FIFO moves. -/
theorem Step.simulates (wf : q.WellFormed) (step : Step q event q') :
    q'.WellFormed ∧ FifoStep q.capacity (contents q) event (contents q') := by
  cases step with
  | tryEnqueue called =>
      unfold fileQueueTryEnqueue at called
      split_ifs at called with room <;> cases called
      · exact ⟨wf.put room _, contents_put wf room _ ▸ .tryStored (by simpa using room)⟩
      · exact ⟨wf, .tryRefused (by simpa using Nat.le_of_not_lt room)⟩
  | enqueue stored =>
      unfold fileQueueEnqueue at stored
      split_ifs at stored with full
      cases stored
      have room : q.count < q.capacity := Nat.lt_of_le_of_ne wf.count_le full
      exact ⟨wf.put room _, contents_put wf room _ ▸ .enqueue (by simpa using room)⟩
  | dequeue taken =>
      unfold fileQueueDequeue at taken
      split_ifs at taken with empty
      cases taken
      exact ⟨wf.take empty, contents_take wf empty ▸ .dequeue⟩

/-- Every step the FIFO can take, the ring takes too: it blocks exactly when the FIFO does. -/
theorem FifoStep.realized (wf : q.WellFormed) {items items' : List α}
    (step : FifoStep q.capacity items event items') (viewed : contents q = items) :
    ∃ q', Step q event q' ∧ contents q' = items' := by
  cases step with
  | tryStored room =>
      rw [← viewed, length_contents] at room
      exact ⟨_, .tryEnqueue (by simp [fileQueueTryEnqueue, room]),
        viewed ▸ contents_put wf room _⟩
  | tryRefused full =>
      rw [← viewed, length_contents] at full
      exact ⟨_, .tryEnqueue (by simp [fileQueueTryEnqueue, Nat.not_lt.mpr full]), viewed⟩
  | enqueue room =>
      rw [← viewed, length_contents] at room
      exact ⟨_, .enqueue (by simp [fileQueueEnqueue, Nat.ne_of_lt room]),
        viewed ▸ contents_put wf room _⟩
  | dequeue =>
      have nonempty : q.count ≠ 0 := by
        rw [← length_contents, viewed]
        exact List.cons_ne_nil _ _ ∘ List.length_eq_zero.mp
      obtain ⟨first, rest⟩ := List.cons.inj (viewed.symm.trans (contents_take wf nonempty))
      exact ⟨_, first ▸ .dequeue (fileQueueDequeue_eq nonempty), rest.symm⟩

/-- A refused `file_queue_try_enqueue` leaves the ring as it was. -/
theorem Step.refused_eq {item : α} (step : Step q (.tryEnqueued item false) q') : q' = q := by
  cases step with
  | tryEnqueue called =>
      unfold fileQueueTryEnqueue at called
      split_ifs at called <;> cases called
      rfl

end Simulation

/-! ## Runs -/

/--
What the ring guarantees in a state: the view fits the capacity, every call
moves it as the bounded FIFO moves, every FIFO move is a call that can take
effect, and a refused `file_queue_try_enqueue` changes nothing.
-/
structure RefinesFifo (q : Queue α) : Prop where
  bounded : (contents q).length ≤ q.capacity
  simulates : ∀ {event q'}, Step q event q' →
    FifoStep q.capacity (contents q) event (contents q')
  complete : ∀ {event items'}, FifoStep q.capacity (contents q) event items' →
    ∃ q', Step q event q' ∧ contents q' = items'
  refusedUnchanged : ∀ {item q'}, Step q (.tryEnqueued item false) q' → q' = q

theorem Queue.WellFormed.refinesFifo {q : Queue α} (wf : q.WellFormed) : RefinesFifo q :=
  ⟨(length_contents q).symm ▸ wf.count_le, fun step => (step.simulates wf).2,
    fun step => step.realized wf rfl, Step.refused_eq⟩

/--
Along a run the ring stays well formed with its capacity, and the items
handed out followed by the view are the view at the start followed by the
items stored.
-/
theorem Run.conserves {start q : Queue α} {events : List (QueueEvent α)}
    (run : Run start events q) (wf : start.WellFormed) :
    q.WellFormed ∧ q.capacity = start.capacity ∧
      events.flatMap QueueEvent.taken ++ contents q =
        contents start ++ events.flatMap QueueEvent.stored := by
  induction run with
  | nil => exact ⟨wf, rfl, by simp⟩
  | snoc _ step ih =>
      obtain ⟨wf', capacity, conserved⟩ := ih
      obtain ⟨wf'', moved⟩ := step.simulates wf'
      refine ⟨wf'', step.capacity_eq.trans capacity, ?_⟩
      simp only [List.flatMap_append, List.flatMap_singleton, List.append_assoc,
        moved.conserves]
      rw [← List.append_assoc, conserved, List.append_assoc]

/--
From `file_queue_init` with a positive capacity, every interleaving of calls
reaches a ring of that capacity which refines the bounded FIFO, and the
dequeued items followed by the queued ones are exactly the stored items:
each stored item is handed out at most once, in the order stored, and none
is lost while queued.
-/
theorem fileQueue_refines_fifo {capacity : Nat} (positive : 0 < capacity) (zero : α)
    {events : List (QueueEvent α)} {q : Queue α}
    (run : Run (fileQueueInit capacity zero) events q) :
    q.capacity = capacity ∧ RefinesFifo q ∧
      events.flatMap QueueEvent.taken ++ contents q = events.flatMap QueueEvent.stored := by
  obtain ⟨wf, sameCapacity, conserved⟩ := run.conserves (wellFormed_init positive zero)
  exact ⟨sameCapacity, wf.refinesFifo, by simpa [contents, fileQueueInit] using conserved⟩

theorem fileQueue_refines_fifo_after_enqueue :
    0 < 1 ∧ Run (fileQueueInit 1 0) [.enqueued 7] ((fileQueueInit 1 0).put 7) ∧
      ((fileQueueInit 1 0).put 7).capacity = 1 ∧ RefinesFifo ((fileQueueInit 1 0).put 7) ∧
      [QueueEvent.enqueued 7].flatMap QueueEvent.taken ++ contents ((fileQueueInit 1 0).put 7) =
        [QueueEvent.enqueued 7].flatMap QueueEvent.stored :=
  have run : Run (fileQueueInit 1 0) [.enqueued 7] ((fileQueueInit 1 0).put 7) :=
    .snoc .nil (.enqueue rfl)
  ⟨by decide, run, fileQueue_refines_fifo (by decide) 0 run⟩

/-! ## Destroying the queue -/

/--
`file_queue_dequeue` copies the head item out and leaves its slot as it was,
while `file_queue_destroy` frees the `data` of every slot.  For every
capacity, once one upload has been enqueued and handed to a worker, the
queue is empty and `file_queue_destroy` frees the buffer the worker owns.
-/
theorem destroy_frees_dequeued_data (capacity : Nat) (positive : 0 < capacity) (item : FileItem)
    (p : Nat) (owned : item.data = some p) :
    ∃ q, Run (fileQueueInit capacity FileItem.zero) [.enqueued item, .dequeued item] q ∧
      contents q = [] ∧ fileQueueDestroy q = [p] := by
  have stored : fileQueueEnqueue (fileQueueInit capacity FileItem.zero) item =
      some ((fileQueueInit capacity FileItem.zero).put item) :=
    if_neg positive.ne
  have taken : fileQueueDequeue ((fileQueueInit capacity FileItem.zero).put item) =
      some (((fileQueueInit capacity FileItem.zero).put item).take, item) := by
    simp [fileQueueDequeue, Queue.put, fileQueueInit]
  refine ⟨_, (Run.nil.snoc (.enqueue stored)).snoc (.dequeue taken), rfl, ?_⟩
  obtain ⟨k, rfl⟩ := Nat.exists_eq_succ_of_ne_zero positive.ne'
  simp [fileQueueDestroy, Queue.take, Queue.put, fileQueueInit, List.range_succ_eq_map,
    Function.update_apply, owned, FileItem.zero]

theorem destroy_frees_dequeued_data_of_one_slot :
    0 < 1 ∧ ({ FileItem.zero with data := some 7 } : FileItem).data = some 7 ∧
      ∃ q, Run (fileQueueInit 1 FileItem.zero)
        [.enqueued { FileItem.zero with data := some 7 },
          .dequeued { FileItem.zero with data := some 7 }] q ∧
        contents q = [] ∧ fileQueueDestroy q = [7] :=
  ⟨by decide, rfl, destroy_frees_dequeued_data 1 (by decide) _ 7 rfl⟩

end ChatServer.FileQueue
