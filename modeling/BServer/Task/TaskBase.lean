import Mathlib.Data.List.Forall2
import BServer.Base.Run
import BServer.Net.MessageFormat

/-!
# `Task.TaskBase` — the task queue

Sessions push the messages they read; workers pop them, first with `try_pop`, and when that finds nothing
with `wait_and_pop`. Both pops copy the front message out before they remove it. Only `try_pop` looks at the
length of the queue and gives the hook `full_queue_event` a chance to edit the copied head, which
`session_task` uses to turn a command into 1010.

All of it runs under `mutex_`, so a system of producers and workers is an interleaving of these functions
(`TaskSystem`). What its history looks like is `pops_are_prefix`: the popped tasks are, in lock order, what
the first messages pushed have to yield, and the queue holds the others.
-/

namespace BServer

/-- The command `full_queue_event` substitutes. -/
def busyCommand : CInt := 1010

/-- What a pop hands to `do_work`: its three reference parameters. -/
structure Task where
  data : Bytes
  head : Head
  id   : Bytes
deriving DecidableEq

/-- `deque_` and `stop_`. -/
structure TaskQueue where
  deque : List MessageFormat
  stop  : Bool

namespace TaskQueue

def empty : TaskQueue := ⟨[], false⟩

/-- `push`. -/
def push (q : TaskQueue) (m : MessageFormat) : TaskQueue := { q with deque := q.deque ++ [m] }

/-- `stop`. -/
def setStop (q : TaskQueue) : TaskQueue := { q with stop := true }

/-- `session_task::full_queue_event`; the data passed along with the head is left alone. -/
def fullQueueEvent (h : Head) : Head := { h with cmd := busyCommand }

/-- What a message copied out of the queue amounts to, the head as given. -/
def taskOf (m : MessageFormat) (h : Head) : Task := ⟨m.payload, h, m.remoteId⟩

/-- `try_pop`, for the configured `task_queue_max`: nothing when the queue is empty. -/
def tryPop (taskQueueMax : Nat) (q : TaskQueue) : Option Task × TaskQueue :=
  match q.deque with
  | []     => (none, q)
  | m :: ms =>
      -- the length is taken before the front message is removed
      let h := if q.deque.length > taskQueueMax then fullQueueEvent m.meetHead else m.meetHead
      (some (taskOf m h), { q with deque := ms })

/-- How `wait_and_pop` leaves its lock. -/
inductive Waited where
  /-- still in `condition_.wait` -/
  | blocked
  /-- threw `stop thread!` -/
  | stopped
  | popped (t : Task)

/-- `wait_and_pop`, at a moment when its loop condition is evaluated. -/
def waitAndPop (q : TaskQueue) : Waited × TaskQueue :=
  -- with `stop_` set the loop is left at once, whatever the queue holds
  if q.stop then (.stopped, q)
  else match q.deque with
    | []      => (.blocked, q)
    | m :: ms => (.popped (taskOf m m.meetHead), { q with deque := ms })

/-! ## What each pop does -/

theorem tryPop_cons (taskQueueMax : Nat) (m : MessageFormat) (ms : List MessageFormat) (stop : Bool) :
    tryPop taskQueueMax ⟨m :: ms, stop⟩
      = (some (taskOf m (if (m :: ms).length > taskQueueMax then fullQueueEvent m.meetHead
          else m.meetHead)), ⟨ms, stop⟩) := rfl

theorem waitAndPop_cons (m : MessageFormat) (ms : List MessageFormat) :
    waitAndPop ⟨m :: ms, false⟩ = (.popped (taskOf m m.meetHead), ⟨ms, false⟩) := rfl

/-- `wait_and_pop` waits on an empty queue, throws when `stop_` is set, or takes the front message. -/
theorem waitAndPop_cases (q : TaskQueue) :
    (q.deque = [] ∧ q.waitAndPop = (.blocked, q)) ∨ (q.stop = true ∧ q.waitAndPop = (.stopped, q)) ∨
    ∃ m ms, q.deque = m :: ms ∧ q.waitAndPop = (.popped (taskOf m m.meetHead), { q with deque := ms }) := by
  obtain ⟨deque, stop⟩ := q
  cases stop with
  | true => exact Or.inr (Or.inl ⟨rfl, rfl⟩)
  | false =>
      cases deque with
      | nil => exact Or.inl ⟨rfl, rfl⟩
      | cons m ms => exact Or.inr (Or.inr ⟨m, ms, rfl, waitAndPop_cons m ms⟩)

/-! ## The two paths -/

/-- The hook leaves a head alone exactly when its command is the substitute already. -/
theorem fullQueueEvent_eq_self {h : Head} : fullQueueEvent h = h ↔ h.cmd = busyCommand := by
  constructor
  · intro heq
    rw [← heq]
    rfl
  · intro hcmd
    rw [fullQueueEvent, ← hcmd]

/-- **The two pop paths agree exactly on a queue within its limit**, or on a front message whose command is
    1010 by itself: the slow path does not look at the length of the queue. -/
theorem pops_agree_iff (taskQueueMax : Nat) (m : MessageFormat) (ms : List MessageFormat) :
    (∃ t q, waitAndPop ⟨m :: ms, false⟩ = (.popped t, q) ∧
      tryPop taskQueueMax ⟨m :: ms, false⟩ = (some t, q)) ↔
    (m :: ms).length ≤ taskQueueMax ∨ m.cmd = busyCommand := by
  rw [waitAndPop_cons, tryPop_cons]
  have hagree : (m :: ms).length ≤ taskQueueMax ∨ m.cmd = busyCommand ↔
      (if (m :: ms).length > taskQueueMax then fullQueueEvent m.meetHead else m.meetHead) = m.meetHead := by
    by_cases hfull : (m :: ms).length > taskQueueMax
    · rw [if_pos hfull, fullQueueEvent_eq_self, or_iff_right (Nat.not_le_of_gt hfull)]
      rfl
    · rw [if_neg hfull]
      exact iff_of_true (Or.inl (Nat.not_lt.mp hfull)) rfl
  rw [hagree]
  constructor
  · rintro ⟨t, q, hpopped, htried⟩
    cases hpopped
    exact congrArg Task.head (Option.some.inj (congrArg Prod.fst htried))
  · intro hhead
    rw [hhead]
    exact ⟨_, _, rfl, rfl⟩

/-- One message in a queue that may hold none. -/
theorem pops_disagree :
    ¬ ∀ (taskQueueMax : Nat) (m : MessageFormat) (ms : List MessageFormat),
      ∃ t q, waitAndPop ⟨m :: ms, false⟩ = (.popped t, q) ∧
        tryPop taskQueueMax ⟨m :: ms, false⟩ = (some t, q) := by
  intro h
  obtain ⟨t, q, hpopped, htried⟩ := h 0 .new []
  cases hpopped
  exact absurd (congrArg (fun out => out.1.map (fun t => t.head.cmd)) htried) (by decide)

end TaskQueue

/-! ## Producers and workers -/

/-- Which function popped. -/
inductive PopCall where
  | tryPop
  | waitAndPop
deriving DecidableEq, Repr

/-- A pop that yielded a task: the worker, the function it called, how many messages the queue held when it
    had the lock, and the task. -/
structure Pop where
  worker : Nat
  call   : PopCall
  held   : Nat
  task   : Task

/-- The queue, and the pops so far in lock order. -/
structure TaskSystem where
  queue  : TaskQueue
  popped : List Pop

namespace TaskSystem

def fresh : TaskSystem := ⟨.empty, []⟩

inductive Event where
  | push (m : MessageFormat)
  | tryPop (worker : Nat)
  | waitAndPop (worker : Nat)
  | stop

/-- One critical section. A `wait_and_pop` that would stay in its loop is not enabled. -/
def step (taskQueueMax : Nat) (w : TaskSystem) : Event → Option TaskSystem
  | .push m => some { w with queue := w.queue.push m }
  | .stop => some { w with queue := w.queue.setStop }
  | .tryPop worker =>
      match w.queue.tryPop taskQueueMax with
      | (none, q)   => some { w with queue := q }
      | (some t, q) => some ⟨q, w.popped ++ [⟨worker, .tryPop, w.queue.deque.length, t⟩]⟩
  | .waitAndPop worker =>
      match w.queue.waitAndPop with
      | (.blocked, _)  => none
      | (.stopped, q)  => some { w with queue := q }
      | (.popped t, q) => some ⟨q, w.popped ++ [⟨worker, .waitAndPop, w.queue.deque.length, t⟩]⟩

/-- The messages an event pushes. -/
def Event.pushes : Event → List MessageFormat
  | .push m => [m]
  | _ => []

/-- A pop yields what the message it removed carries. The command is the message's own, except that
    `try_pop` on a queue longer than the maximum yields 1010. -/
structure Yields (taskQueueMax : Nat) (m : MessageFormat) (p : Pop) : Prop where
  data  : p.task.data = m.body.take m.bodyLength
  magic : p.task.head.magic = m.magic
  len   : p.task.head.len = m.len
  cmd   : p.task.head.cmd = if p.call = .tryPop ∧ taskQueueMax < p.held then 1010 else m.cmd
  id    : p.task.id = m.remoteId

variable {taskQueueMax : Nat}

theorem yields_tryPop (worker : Nat) (m : MessageFormat) (ms : List MessageFormat) :
    Yields taskQueueMax m ⟨worker, .tryPop, (m :: ms).length, TaskQueue.taskOf m
      (if (m :: ms).length > taskQueueMax then TaskQueue.fullQueueEvent m.meetHead else m.meetHead)⟩ := by
  by_cases hfull : (m :: ms).length > taskQueueMax
  · rw [if_pos hfull]
    exact ⟨rfl, rfl, rfl, (if_pos ⟨rfl, hfull⟩).symm, rfl⟩
  · rw [if_neg hfull]
    exact ⟨rfl, rfl, rfl, (if_neg (fun h => hfull h.2)).symm, rfl⟩

theorem yields_waitAndPop (worker held : Nat) (m : MessageFormat) :
    Yields taskQueueMax m ⟨worker, .waitAndPop, held, TaskQueue.taskOf m m.meetHead⟩ :=
  ⟨rfl, rfl, rfl, (if_neg (fun h => by cases h.1)).symm, rfl⟩

/-- **One critical section.** It removes at most the front message, appends what that yields to the history
    of pops, and appends what it pushes to the queue. -/
theorem step_spec {w w' : TaskSystem} {e : Event} (hs : step taskQueueMax w e = some w') :
    (w'.queue.deque = w.queue.deque ++ e.pushes ∧ w'.popped = w.popped) ∨
    ∃ m ms p, e.pushes = [] ∧ w.queue.deque = m :: ms ∧ w'.queue.deque = ms ∧
      w'.popped = w.popped ++ [p] ∧ Yields taskQueueMax m p := by
  obtain ⟨⟨deque, stop⟩, popped⟩ := w
  cases e with
  | push m =>
      cases hs
      exact Or.inl ⟨rfl, rfl⟩
  | stop =>
      cases hs
      exact Or.inl ⟨(List.append_nil _).symm, rfl⟩
  | tryPop worker =>
      cases deque with
      | nil =>
          cases hs
          exact Or.inl ⟨rfl, rfl⟩
      | cons m ms =>
          cases hs
          exact Or.inr ⟨m, ms, _, rfl, rfl, rfl, rfl, yields_tryPop worker m ms⟩
  | waitAndPop worker =>
      have hcases := TaskQueue.waitAndPop_cases ⟨deque, stop⟩
      simp only [step] at hs
      rcases hcases with ⟨_, hwait⟩ | ⟨_, hwait⟩ | ⟨m, ms, hd, hwait⟩
      · rw [hwait] at hs
        cases hs
      · rw [hwait] at hs
        cases hs
        exact Or.inl ⟨(List.append_nil _).symm, rfl⟩
      · rw [hwait] at hs
        cases hs
        exact Or.inr ⟨m, ms, _, rfl, hd, rfl, rfl, yields_waitAndPop worker _ m⟩

/-- The queue holds the messages not yet popped, and the pops are what the others yield. -/
def Accounted (taskQueueMax : Nat) (pushed : List MessageFormat) (w : TaskSystem) : Prop :=
  ∃ taken, pushed = taken ++ w.queue.deque ∧ List.Forall₂ (Yields taskQueueMax) taken w.popped

theorem Accounted.step {pushed : List MessageFormat} {w w' : TaskSystem} {e : Event}
    (h : Accounted taskQueueMax pushed w) (hs : step taskQueueMax w e = some w') :
    Accounted taskQueueMax (pushed ++ e.pushes) w' := by
  obtain ⟨taken, hpushed, hall⟩ := h
  rcases step_spec hs with ⟨hq, hp⟩ | ⟨m, ms, p, he, hq, hq', hp, hy⟩
  · -- nothing was popped
    refine ⟨taken, ?_, hp ▸ hall⟩
    rw [hpushed, hq, List.append_assoc]
  · refine ⟨taken ++ [m], ?_, ?_⟩
    · rw [hpushed, he, hq, hq', List.append_nil, List.append_assoc]
      rfl
    · rw [hp]
      exact List.rel_append hall (.cons hy .nil)

/-- **Exactly once, in order, intact.** After any interleaving of pushes, pops and `stop`, the pops in lock
    order are what a prefix of the pushed messages yields, one pop a message, and the queue holds the rest. -/
theorem pops_are_prefix (taskQueueMax : Nat) (es : List Event) (w : TaskSystem)
    (hrun : Run.run (step taskQueueMax) fresh es = some w) :
    ∃ taken, es.flatMap Event.pushes = taken ++ w.queue.deque ∧
      List.Forall₂ (Yields taskQueueMax) taken w.popped := by
  refine Run.run_induction (step taskQueueMax)
    (P := fun es w => Accounted taskQueueMax (es.flatMap Event.pushes) w) ⟨[], rfl, .nil⟩ ?_ hrun
  intro es t e u _ ih hu
  rw [List.flatMap_append, List.flatMap_singleton]
  exact ih.step hu

/-- Three messages and a limit of two: the first pop is over the limit, the second is not. -/
theorem pops_are_prefix_overload :
    let m := MessageFormat.new
    let first : Pop := ⟨0, .tryPop, 3, ⟨[], ⟨0, 0, 1010⟩, []⟩⟩
    let second : Pop := ⟨1, .tryPop, 2, ⟨[], ⟨0, 0, 0⟩, []⟩⟩
    ∃ taken, [m, m, m] = taken ++ [m] ∧ List.Forall₂ (Yields 2) taken [first, second] :=
  pops_are_prefix 2 [.push .new, .push .new, .push .new, .tryPop 0, .tryPop 1] _ rfl

end TaskSystem

end BServer
