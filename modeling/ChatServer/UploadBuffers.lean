import ChatServer.UploadPipeline
import Mathlib.Algebra.BigOperators.Group.Finset

/-!
# Every upload buffer is freed once, or left in the queue

`ChatServer.UploadPipeline` follows the payload buffers of `/sendfile`
uploads along every interleaving of the session handlers, the upload workers
and the supervisor.  This module proves what the pipeline keeps about them.

At every reachable state each buffer `malloc` has handed out is in exactly
one place, or has been passed to `free` exactly once: the session that
received the payload into it, one slot of the upload queue, or the worker
that dequeued it.  No other buffer is held or freed.  So no buffer is freed
twice, a freed buffer is used by no one, and none is freed before `malloc`
returns it.  Nothing is lost on the way either: once every thread has
returned, the buffers never freed are exactly those of the items still in
the queue, behind the sentinels that made the workers exit.
-/

namespace ChatServer.UploadBuffers

open ChatServer.Basic ChatServer.FileQueue ChatServer.UploadPipeline

/-! ## Where a buffer can be -/

/--
The item of the upload a session holds, from its `malloc` to the return of
`file_queue_enqueue`.
-/
def handlerItem : HandlerPc → Option FileItem
  | .receiving _ item => some item
  | .enqueueing _ item => some item
  | _ => none

/-- The item a worker holds, from `file_queue_dequeue` to its `free(item.data)`. -/
def workerItem : WorkerPc → Option FileItem
  | .holding item => some item
  | _ => none

/-- `1` when `item` is an item whose `data` is the buffer `b`. -/
def holds (item : Option FileItem) (b : Nat) : Nat :=
  if item.bind FileItem.data = some b then 1 else 0

/-- How many items of a queue's view hold the buffer `b`. -/
def queued : List FileItem → Nat → Nat
  | [], _ => 0
  | item :: items, b => holds (some item) b + queued items b

/-- How many places hold the buffer `b`: the sessions, the upload queue's slots and the workers. -/
def holders (handlers : Fin maxConn → HandlerPc) (queue : Queue FileItem)
    (workers : Fin numUploadWorkers → WorkerPc) (b : Nat) : Nat :=
  (∑ session, holds (handlerItem (handlers session)) b) + queued (contents queue) b +
    ∑ worker, holds (workerItem (workers worker)) b

/-- A sentinel carries no buffer. -/
def Bare (item : FileItem) : Prop :=
  item.isSentinel = true → item.data = none

/--
What the pipeline keeps about its buffers: the queue is a ring, no item a
session or the queue holds is a sentinel with a buffer, and each buffer
`malloc` has handed out is held by exactly one place or has been freed
exactly once, while no other buffer is held or freed.
-/
structure Accounted (p : Pipeline) : Prop where
  ring : p.queue.WellFormed
  sessions : ∀ session item, handlerItem (p.handlers session) = some item → Bare item
  slots : ∀ item ∈ contents p.queue, Bare item
  balance : ∀ b, holders p.handlers p.queue p.workers b + p.frees b =
    if b < p.nextBuffer then 1 else 0

/-! ## How the counts move -/

@[simp]
theorem holds_none (b : Nat) : holds none b = 0 := rfl

theorem freeData_apply (item : FileItem) (frees : Nat → Nat) (b : Nat) :
    freeData item.data frees b = frees b + holds (some item) b := by
  show _ = _ + if item.data = some b then 1 else 0
  cases item.data with
  | none => simp [freeData]
  | some buffer =>
      rw [freeData, Function.update_apply]
      by_cases same : b = buffer <;> simp [same, eq_comm]

theorem queued_append (items more : List FileItem) (b : Nat) :
    queued (items ++ more) b = queued items b + queued more b := by
  induction items with
  | nil => simp [queued]
  | cons item items ih => rw [List.cons_append, queued, queued, ih, Nat.add_assoc]

theorem queued_eq_zero {items : List FileItem} {b : Nat} :
    queued items b = 0 ↔ ∀ item ∈ items, item.data ≠ some b := by
  induction items with
  | nil => simp [queued]
  | cons item items ih =>
      simp only [queued, Nat.add_eq_zero_iff, List.forall_mem_cons, ih]
      simp [holds]

/-- Replacing one entry of a table moves a sum over it by the difference of the two entries. -/
theorem sum_update_add {n : Nat} {α : Type} (g : α → Nat) (f : Fin n → α) (i : Fin n)
    (v : α) :
    ∑ x, g (Function.update f i v x) + g (f i) = ∑ x, g (f x) + g v := by
  have updated := Finset.sum_update_of_mem (Finset.mem_univ i) (g ∘ f) (g v)
  have split := Finset.sum_eq_add_sum_diff_singleton (Finset.mem_univ i) (g ∘ f)
  rw [← Function.comp_update] at updated
  simp only [Function.comp_apply] at updated split
  omega

section Holders

variable (handlers : Fin maxConn → HandlerPc) (queue : Queue FileItem)
  (workers : Fin numUploadWorkers → WorkerPc) (b : Nat)

theorem holders_setHandler (session : Fin maxConn) (pc : HandlerPc) :
    holders (Function.update handlers session pc) queue workers b +
        holds (handlerItem (handlers session)) b =
      holders handlers queue workers b + holds (handlerItem pc) b := by
  have moved := sum_update_add (fun pc => holds (handlerItem pc) b) handlers session pc
  unfold holders
  omega

theorem holders_setWorker (worker : Fin numUploadWorkers) (pc : WorkerPc) :
    holders handlers queue (Function.update workers worker pc) b +
        holds (workerItem (workers worker)) b =
      holders handlers queue workers b + holds (workerItem pc) b := by
  have moved := sum_update_add (fun pc => holds (workerItem pc) b) workers worker pc
  unfold holders
  omega

/-- A queue operation moves its taken items out of the count and its stored items in. -/
theorem holders_setQueue {queue' : Queue FileItem} {taken stored : List FileItem}
    (moved : taken ++ contents queue' = contents queue ++ stored) :
    holders handlers queue' workers b + queued taken b =
      holders handlers queue workers b + queued stored b := by
  have counted := congrArg (queued · b) moved
  simp only [queued_append] at counted
  unfold holders
  omega

end Holders

/-- A call on the ring keeps it a ring and moves the view as a FIFO does. -/
theorem queue_step {q q' : Queue FileItem} {event : QueueEvent FileItem} (ring : q.WellFormed)
    (step : FileQueue.Step q event q') :
    q'.WellFormed ∧ event.taken ++ contents q' = contents q ++ event.stored :=
  have ⟨ring', fifo⟩ := step.simulates ring
  ⟨ring', fifo.conserves⟩

/-- A property of every session's item survives a session's move to a state whose item has it. -/
theorem items_update {P : FileItem → Prop} {handlers : Fin maxConn → HandlerPc}
    (all : ∀ session item, handlerItem (handlers session) = some item → P item)
    (session : Fin maxConn) {pc : HandlerPc}
    (new : ∀ item, handlerItem pc = some item → P item) :
    ∀ other item, handlerItem (Function.update handlers session pc other) = some item →
      P item := by
  intro other item held
  rcases eq_or_ne other session with rfl | differs
  · exact new item (by rwa [Function.update_same] at held)
  · exact all other item (by rwa [Function.update_noteq differs] at held)

/-! ## Every step keeps the account -/

theorem accounted_initial : Accounted Pipeline.initial where
  ring := wellFormed_init (by decide) _
  sessions _ _ held := nomatch held
  slots _ member := nomatch member
  balance _ := by simp [holders, Pipeline.initial, contents, fileQueueInit, handlerItem,
    workerItem, queued]

theorem Accounted.step {p p' : Pipeline} {event : Event} (acc : Accounted p)
    (step : Step p event p') : Accounted p' := by
  obtain ⟨ring, sessions, slots, balance⟩ := acc
  cases step with
  | connect session username _ free =>
      refine ⟨ring, items_update sessions session nofun, slots, fun b => ?_⟩
      have moved := holders_setHandler p.handlers p.queue p.workers b session (.idle username)
      have gone : handlerItem (p.handlers session) = none := by
        rcases free with free | free <;> rw [free] <;> rfl
      rw [gone] at moved
      have := balance b
      simp only [handlerItem, holds_none] at moved
      dsimp only
      omega
  | rejectSize => exact ⟨ring, sessions, slots, balance⟩
  | mallocFailed => exact ⟨ring, sessions, slots, balance⟩
  | @malloc session filename target size username idle _ =>
      refine ⟨ring, items_update sessions session fun item held => ?_, slots, fun b => ?_⟩
      · cases held; nofun
      have moved := holders_setHandler p.handlers p.queue p.workers b session
        (.receiving username (uploadItem filename target username size p.nextBuffer))
      have := balance b
      have fresh : holds (handlerItem (.receiving username
          (uploadItem filename target username size p.nextBuffer))) b =
          if p.nextBuffer = b then 1 else 0 := by
        simp [holds, handlerItem, uploadItem]
      rw [idle, fresh] at moved
      simp only [handlerItem, holds_none] at moved
      dsimp only
      split_ifs at moved this ⊢ <;> omega
  | @received session username item receiving =>
      refine ⟨ring, items_update sessions session fun _ held => sessions session _
        (by rw [receiving]; exact held), slots, fun b => ?_⟩
      have moved := holders_setHandler p.handlers p.queue p.workers b session
        (.enqueueing username item)
      have := balance b
      rw [receiving] at moved
      dsimp only [handlerItem] at moved ⊢
      omega
  | @truncated session username item receiving =>
      refine ⟨ring, items_update sessions session nofun, slots, fun b => ?_⟩
      have moved := holders_setHandler p.handlers p.queue p.workers b session (.idle username)
      have := balance b
      rw [receiving] at moved
      dsimp only [handlerItem] at moved ⊢
      rw [freeData_apply, holds_none] at *
      omega
  | @enqueue session username item queue enqueueing stored =>
      obtain ⟨ring', moved⟩ := queue_step ring (.enqueue stored)
      have grown : contents queue = contents p.queue ++ [item] := moved
      refine ⟨ring', items_update sessions session nofun, fun other member => ?_, fun b => ?_⟩
      · rcases List.mem_append.mp (grown ▸ member) with old | ⟨⟩ | ⟨_, ⟨⟩⟩
        · exact slots other old
        · exact sessions session _ (by rw [enqueueing]; rfl)
      have entered := holders_setQueue p.handlers p.queue p.workers b moved
      have left := holders_setHandler p.handlers queue p.workers b session (.idle username)
      have := balance b
      rw [enqueueing] at left
      simp only [QueueEvent.taken, QueueEvent.stored, queued] at entered
      dsimp only [handlerItem] at left ⊢
      rw [holds_none] at left
      omega
  | @exit session username idle =>
      refine ⟨ring, items_update sessions session nofun, slots, fun b => ?_⟩
      have moved := holders_setHandler p.handlers p.queue p.workers b session .finished
      have := balance b
      rw [idle] at moved
      dsimp only [handlerItem] at moved ⊢
      omega
  | @dequeue worker queue item waiting taken =>
      obtain ⟨ring', moved⟩ := queue_step ring (.dequeue taken)
      have shrunk : item :: contents queue = contents p.queue := moved.trans (List.append_nil _)
      refine ⟨ring', sessions,
        fun other member => slots other (shrunk ▸ List.mem_cons_of_mem _ member), fun b => ?_⟩
      have left := holders_setQueue p.handlers p.queue p.workers b moved
      have entered := holders_setWorker p.handlers queue p.workers b worker
        (if item.isSentinel then .exited else .holding item)
      have := balance b
      rw [waiting] at entered
      simp only [QueueEvent.taken, QueueEvent.stored, queued] at left
      dsimp only
      by_cases sentinel : item.isSentinel = true
      · have bare : holds (some item) b = 0 := by
          simp [holds, slots item (shrunk ▸ List.mem_cons_self _ _) sentinel]
        rw [if_pos sentinel] at entered ⊢
        simp only [workerItem, holds_none] at entered
        omega
      · rw [if_neg sentinel] at entered ⊢
        simp only [workerItem, holds_none] at entered
        omega
  | @release worker item holding =>
      refine ⟨ring, sessions, slots, fun b => ?_⟩
      have moved := holders_setWorker p.handlers p.queue p.workers b worker .waiting
      have := balance b
      rw [holding] at moved
      dsimp only [workerItem] at moved ⊢
      rw [freeData_apply, holds_none] at *
      omega
  | stop => exact ⟨ring, sessions, slots, balance⟩
  | @sentinel _ queue _ _ stored =>
      obtain ⟨ring', moved⟩ := queue_step ring (.enqueue stored)
      have grown : contents queue = contents p.queue ++ [sentinel] := moved
      refine ⟨ring', sessions, fun other member => ?_, fun b => ?_⟩
      · rcases List.mem_append.mp (grown ▸ member) with old | ⟨⟩ | ⟨_, ⟨⟩⟩
        · exact slots other old
        · exact fun _ => rfl
      have entered := holders_setQueue p.handlers p.queue p.workers b moved
      have := balance b
      simp only [QueueEvent.taken, QueueEvent.stored, queued] at entered
      have bare : holds (some sentinel) b = 0 := rfl
      dsimp only
      omega
  | closeSessions => exact ⟨ring, sessions, slots, balance⟩
  | joinWorkers => exact ⟨ring, sessions, slots, balance⟩
  | joinHandlers => exact ⟨ring, sessions, slots, balance⟩

/-- The last step of a run. -/
theorem run_last {p p'' : Pipeline} {events : List Event} {event : Event}
    (run : Run p (events ++ [event]) p'') : ∃ p', Run p events p' ∧ Step p' event p'' := by
  generalize same : events ++ [event] = schedule at run
  cases run with
  | nil => exact absurd same (List.append_ne_nil_of_right_ne_nil _ (List.cons_ne_nil _ _))
  | snoc before step =>
      obtain ⟨rfl, last⟩ := List.append_inj' same rfl
      cases last
      exact ⟨_, before, step⟩

/-- A run splits at any point of its schedule. -/
theorem run_split {p p'' : Pipeline} {first rest : List Event} (run : Run p (first ++ rest) p'') :
    ∃ p', Run p first p' ∧ Run p' rest p'' := by
  induction rest using List.reverseRecOn generalizing p'' with
  | nil => exact ⟨p'', by rwa [List.append_nil] at run, .nil⟩
  | append_singleton rest event ih =>
      rw [← List.append_assoc] at run
      obtain ⟨q, before, last⟩ := run_last run
      obtain ⟨p', head, tail⟩ := ih before
      exact ⟨p', head, tail.snoc last⟩

theorem Accounted.run {p p' : Pipeline} {events : List Event} (acc : Accounted p)
    (run : Run p events p') : Accounted p' := by
  induction run with
  | nil => exact acc
  | snoc _ step reached => exact reached.step step

/-! ## What the account rules out -/

/-- Once every thread has returned, only the queue holds buffers. -/
theorem holders_of_allFinished {p : Pipeline} (finished : p.AllFinished) (b : Nat) :
    holders p.handlers p.queue p.workers b = queued (contents p.queue) b := by
  obtain ⟨-, exited, returned⟩ := finished
  have sessions : ∑ session, holds (handlerItem (p.handlers session)) b = 0 :=
    Finset.sum_eq_zero fun session _ => by
      rcases returned session with gone | gone <;> rw [gone] <;> rfl
  have workers : ∑ worker, holds (workerItem (p.workers worker)) b = 0 :=
    Finset.sum_eq_zero fun worker _ => by rw [exited worker]; rfl
  unfold holders
  omega

/--
Along every interleaving of the sessions, the upload workers and the
supervisor, no buffer is passed to `free` twice, a freed buffer is held by no
session, queue slot or worker, and no buffer is freed before `malloc` hands
it out.  Once every thread has returned, the buffers `malloc` handed out and
no one freed are exactly those of the items still in the upload queue.
-/
theorem upload_buffers_freed_once {events : List Event} {p : Pipeline}
    (run : Run Pipeline.initial events p) (b : Nat) :
    p.frees b ≤ 1 ∧ (0 < p.frees b → holders p.handlers p.queue p.workers b = 0) ∧
      (p.nextBuffer ≤ b → p.frees b = 0) ∧
      (p.AllFinished →
        (b < p.nextBuffer ∧ p.frees b = 0 ↔
          ∃ item ∈ contents p.queue, item.data = some b)) := by
  have balance := (accounted_initial.run run).balance b
  refine ⟨by split_ifs at balance <;> omega, fun _ => by split_ifs at balance <;> omega,
    fun unallocated => by rw [if_neg (by omega)] at balance; omega, fun finished => ?_⟩
  have held :
      queued (contents p.queue) b ≠ 0 ↔ ∃ item ∈ contents p.queue, item.data = some b := by
    rw [Ne, queued_eq_zero]
    push_neg
    rfl
  rw [holders_of_allFinished finished] at balance
  rw [← held]
  split_ifs at balance <;> constructor <;> intro <;> omega

/-- Session 0 uploads one byte for `b`; worker 0 dequeues it and frees its buffer. -/
def deliveredUpload : List Event :=
  [.connect 0 ['a'], .sendfile 0 ['f'] ['b'] 1 true, .receive 0 true, .enqueue 0, .dequeue 0,
    .release 0]

theorem upload_buffers_freed_once_of_delivered :
    ∃ p, Run Pipeline.initial deliveredUpload p ∧ p.frees 0 = 1 ∧
      (p.frees 0 ≤ 1 ∧ (0 < p.frees 0 → holders p.handlers p.queue p.workers 0 = 0) ∧
        (p.nextBuffer ≤ 0 → p.frees 0 = 0) ∧
        (p.AllFinished →
          (0 < p.nextBuffer ∧ p.frees 0 = 0 ↔
            ∃ item ∈ contents p.queue, item.data = some 0))) := by
  have run := (Run.nil (p := Pipeline.initial)).snoc (Step.connect 0 ['a'] rfl (.inl rfl))
  replace run := run.snoc (Step.malloc 0 ['f'] ['b'] 1 rfl (by decide))
  replace run := run.snoc (Step.received 0 rfl)
  replace run := run.snoc (Step.enqueue 0 rfl rfl)
  replace run := run.snoc (Step.dequeue 0 rfl rfl)
  replace run := run.snoc (Step.release 0 rfl)
  exact ⟨_, run, rfl, upload_buffers_freed_once run 0⟩

/-! ## Without a late upload nothing leaks -/

/--
Before `SIGINT`: the items sessions hold are uploads, and while the
supervisor serves, the queue holds no sentinel and no worker has exited.
-/
structure Undisturbed (p : Pipeline) : Prop where
  uploads : ∀ session item, handlerItem (p.handlers session) = some item →
    item.isSentinel = false
  calm : p.supervisor = .serving →
    (∀ item ∈ contents p.queue, item.isSentinel = false) ∧
      ∀ worker, p.workers worker ≠ .exited

/--
After `SIGINT`, while no session enqueues: the sentinels stand behind every
upload in the queue, and once a worker has exited only sentinels are left.
-/
structure Draining (p : Pipeline) : Prop where
  behind : (contents p.queue).Pairwise fun a b => a.isSentinel = true → b.isSentinel = true
  drained : (∃ worker, p.workers worker = .exited) →
    ∀ item ∈ contents p.queue, item.isSentinel = true

theorem undisturbed_initial : Undisturbed Pipeline.initial :=
  ⟨fun _ _ held => (nomatch held),
    fun _ => ⟨fun _ member => (nomatch member), fun _ => nofun⟩⟩

theorem Undisturbed.step {p p' : Pipeline} {event : Event} (acc : Accounted p)
    (und : Undisturbed p) (step : Step p event p') : Undisturbed p' := by
  obtain ⟨uploads, calm⟩ := und
  cases step with
  | connect session => exact ⟨items_update uploads session nofun, calm⟩
  | rejectSize => exact ⟨uploads, calm⟩
  | mallocFailed => exact ⟨uploads, calm⟩
  | malloc session =>
      exact ⟨items_update uploads session fun _ held => by cases held; rfl, calm⟩
  | received session receiving =>
      exact ⟨items_update uploads session fun _ held =>
        uploads session _ (by rw [receiving]; exact held), calm⟩
  | truncated session => exact ⟨items_update uploads session nofun, calm⟩
  | @enqueue session username item queue enqueueing stored =>
      have grown : contents queue = contents p.queue ++ [item] :=
        (queue_step acc.ring (.enqueue stored)).2
      refine ⟨items_update uploads session nofun,
        fun serving => ⟨fun other member => ?_, (calm serving).2⟩⟩
      rcases List.mem_append.mp (grown ▸ member) with old | ⟨⟩ | ⟨_, ⟨⟩⟩
      · exact (calm serving).1 other old
      · exact uploads session _ (by rw [enqueueing]; rfl)
  | exit session => exact ⟨items_update uploads session nofun, calm⟩
  | @dequeue worker queue item waiting taken =>
      have shrunk : item :: contents queue = contents p.queue :=
        (queue_step acc.ring (.dequeue taken)).2.trans (List.append_nil _)
      refine ⟨uploads, fun serving => ⟨fun other member =>
        (calm serving).1 other (shrunk ▸ List.mem_cons_of_mem _ member), fun other => ?_⟩⟩
      dsimp only
      rcases eq_or_ne other worker with rfl | differs
      · have upload := (calm serving).1 item (shrunk ▸ List.mem_cons_self _ _)
        rw [Function.update_same, if_neg (by simp [upload])]
        nofun
      · exact (Function.update_noteq differs _ _).trans_ne ((calm serving).2 other)
  | release worker =>
      refine ⟨uploads, fun serving => ⟨(calm serving).1, fun other => ?_⟩⟩
      dsimp only
      rcases eq_or_ne other worker with rfl | differs
      · rw [Function.update_same]; nofun
      · exact (Function.update_noteq differs _ _).trans_ne ((calm serving).2 other)
  | stop => exact ⟨uploads, nofun⟩
  | sentinel => exact ⟨uploads, nofun⟩
  | closeSessions => exact ⟨uploads, nofun⟩
  | joinWorkers => exact ⟨uploads, nofun⟩
  | joinHandlers => exact ⟨uploads, nofun⟩

theorem Undisturbed.run {p p' : Pipeline} {events : List Event} (acc : Accounted p)
    (und : Undisturbed p) (run : Run p events p') : Undisturbed p' := by
  induction run with
  | nil => exact und
  | snoc before step reached => exact reached.step (acc.run before) step

/-- At `SIGINT` the queue holds only uploads and every worker still runs. -/
theorem draining_of_stop {p p' : Pipeline} (und : Undisturbed p) (step : Step p .stop p') :
    Draining p' := by
  cases step with
  | stop serving =>
      have ⟨clean, running⟩ := und.calm serving
      refine ⟨(List.pairwise_of_forall fun _ _ => trivial).imp_of_mem
        fun upload _ _ sentinel => ?_, fun ⟨worker, exited⟩ => absurd exited (running worker)⟩
      rw [clean _ upload] at sentinel
      cases sentinel

theorem Draining.step {p p' : Pipeline} {event : Event} (acc : Accounted p) (dr : Draining p)
    (step : Step p event p') (onTime : ∀ session, event ≠ .enqueue session) : Draining p' := by
  obtain ⟨behind, drained⟩ := dr
  cases step with
  | enqueue session => exact absurd rfl (onTime session)
  | @dequeue worker queue item waiting taken =>
      have shrunk : item :: contents queue = contents p.queue :=
        (queue_step acc.ring (.dequeue taken)).2.trans (List.append_nil _)
      rw [← shrunk, List.pairwise_cons] at behind
      refine ⟨behind.2, fun ⟨other, exited⟩ rest member => ?_⟩
      dsimp only at exited
      rcases eq_or_ne other worker with rfl | differs
      · rw [Function.update_same] at exited
        split_ifs at exited with sentinel
        · exact behind.1 rest member sentinel
      · rw [Function.update_noteq differs] at exited
        exact drained ⟨other, exited⟩ rest (shrunk ▸ List.mem_cons_of_mem _ member)
  | @sentinel _ queue _ _ stored =>
      have grown : contents queue = contents p.queue ++ [sentinel] :=
        (queue_step acc.ring (.enqueue stored)).2
      refine ⟨grown ▸ List.pairwise_append.mpr ⟨behind, List.pairwise_singleton _ _,
        fun _ _ _ member _ => by rw [List.mem_singleton.mp member]; rfl⟩,
        fun exited item member => ?_⟩
      rcases List.mem_append.mp (grown ▸ member) with old | ⟨⟩ | ⟨_, ⟨⟩⟩
      · exact drained exited item old
      · rfl
  | connect => exact ⟨behind, drained⟩
  | rejectSize => exact ⟨behind, drained⟩
  | mallocFailed => exact ⟨behind, drained⟩
  | malloc => exact ⟨behind, drained⟩
  | received => exact ⟨behind, drained⟩
  | truncated => exact ⟨behind, drained⟩
  | exit => exact ⟨behind, drained⟩
  | release worker =>
      refine ⟨behind, fun ⟨other, exited⟩ => drained ⟨other, ?_⟩⟩
      dsimp only at exited
      rcases eq_or_ne other worker with rfl | differs
      · rw [Function.update_same] at exited; cases exited
      · rwa [Function.update_noteq differs] at exited
  | stop => exact ⟨behind, drained⟩
  | closeSessions => exact ⟨behind, drained⟩
  | joinWorkers => exact ⟨behind, drained⟩
  | joinHandlers => exact ⟨behind, drained⟩

theorem Draining.run {p p' : Pipeline} {events : List Event} (acc : Accounted p) (dr : Draining p)
    (run : Run p events p') (onTime : ∀ session, Event.enqueue session ∉ events) :
    Draining p' := by
  induction run with
  | nil => exact dr
  | snoc before step reached =>
      exact (reached fun session member => onTime session (List.mem_append_left _ member)).step
        (acc.run before) step fun session same =>
          onTime session (same ▸ List.mem_append_right _ (List.mem_singleton_self _))

/--
When no session enqueues an upload after `SIGINT`, every buffer is accounted
for once every thread has returned: each buffer `malloc` handed out has been
passed to `free` exactly once, and no other buffer has.  With
`upload_after_sentinels_leaks`, a late upload is the only way a buffer
outlives the server's threads.
-/
theorem buffers_freed_without_late_uploads {before after : List Event} {p : Pipeline}
    (run : Run Pipeline.initial (before ++ .stop :: after) p)
    (onTime : ∀ session, Event.enqueue session ∉ after) (finished : p.AllFinished) (b : Nat) :
    p.frees b = if b < p.nextBuffer then 1 else 0 := by
  obtain ⟨p₂, stopping, late⟩ := @run_split _ _ (before ++ [.stop]) after
    (by rwa [List.append_assoc, List.singleton_append])
  obtain ⟨p₁, early, stopped⟩ := run_last stopping
  have acc₂ := (accounted_initial.run early).step stopped
  have acc := acc₂.run late
  have dr := (draining_of_stop (undisturbed_initial.run accounted_initial early) stopped).run acc₂
    late onTime
  have sentinels := dr.drained ⟨0, finished.2.1 0⟩
  have empty : queued (contents p.queue) b = 0 :=
    queued_eq_zero.mpr fun item member => by
      rw [acc.slots item member (sentinels item member)]; nofun
  have balance := acc.balance b
  rwa [holders_of_allFinished finished, empty, Nat.zero_add] at balance

/--
Session 0 (user `a`) uploads one byte for `b` before `SIGINT`; worker 0
sends it and frees its buffer, the supervisor enqueues its sentinels, every
worker exits at one, and everyone is joined.
-/
def uploadBeforeStop : List Event :=
  [.connect 0 ['a'], .sendfile 0 ['f'] ['b'] 1 true, .receive 0 true, .enqueue 0, .stop,
   .dequeue 0, .release 0, .sentinel, .sentinel, .sentinel, .sentinel, .sentinel,
   .closeSessions, .dequeue 0, .dequeue 1, .dequeue 2, .dequeue 3, .dequeue 4, .exit 0,
   .joinWorkers, .joinHandlers]

theorem buffers_freed_without_late_uploads_of_upload_before_stop :
    ∃ p, Run Pipeline.initial (uploadBeforeStop.take 4 ++ .stop :: uploadBeforeStop.drop 5) p ∧
      (∀ session, Event.enqueue session ∉ uploadBeforeStop.drop 5) ∧ p.AllFinished ∧
      p.nextBuffer = 1 ∧ p.frees 0 = if 0 < p.nextBuffer then 1 else 0 := by
  have run := (Run.nil (p := Pipeline.initial)).snoc (Step.connect 0 ['a'] rfl (.inl rfl))
  replace run := run.snoc (Step.malloc 0 ['f'] ['b'] 1 rfl (by decide))
  replace run := run.snoc (Step.received 0 rfl)
  replace run := run.snoc (Step.enqueue 0 rfl rfl)
  replace run := run.snoc (Step.stop rfl)
  replace run := run.snoc (Step.dequeue 0 rfl rfl)
  replace run := run.snoc (Step.release 0 rfl)
  replace run := run.snoc (Step.sentinel rfl (by decide) rfl)
  replace run := run.snoc (Step.sentinel rfl (by decide) rfl)
  replace run := run.snoc (Step.sentinel rfl (by decide) rfl)
  replace run := run.snoc (Step.sentinel rfl (by decide) rfl)
  replace run := run.snoc (Step.sentinel rfl (by decide) rfl)
  replace run := run.snoc (Step.closeSessions rfl)
  replace run := run.snoc (Step.dequeue 0 rfl rfl)
  replace run := run.snoc (Step.dequeue 1 rfl rfl)
  replace run := run.snoc (Step.dequeue 2 rfl rfl)
  replace run := run.snoc (Step.dequeue 3 rfl rfl)
  replace run := run.snoc (Step.dequeue 4 rfl rfl)
  replace run := run.snoc (Step.exit 0 rfl)
  replace run := run.snoc (Step.joinWorkers rfl (by decide))
  obtain ⟨p, run, finished, allocated⟩ : ∃ p, Run Pipeline.initial
      (uploadBeforeStop.take 4 ++ .stop :: uploadBeforeStop.drop 5) p ∧ p.AllFinished ∧
        p.nextBuffer = 1 := by
    refine ⟨_, run.snoc (Step.joinHandlers rfl fun session => ?_),
      ⟨rfl, by decide, fun session => ?_⟩, rfl⟩
    all_goals
      dsimp only [Pipeline.initial]
      simp only [Function.update_idem]
      rcases eq_or_ne session 0 with rfl | other
      · exact .inr (Function.update_same _ _ _)
      · exact .inl (Function.update_noteq other _ _)
  have onTime : ∀ session, Event.enqueue session ∉ uploadBeforeStop.drop 5 := by
    simp [uploadBeforeStop]
  exact ⟨p, run, onTime, finished, allocated,
    buffers_freed_without_late_uploads run onTime finished 0⟩

end ChatServer.UploadBuffers
