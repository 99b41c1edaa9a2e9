import BServer.Task.TaskBase

/-!
# `Task.Wakeup` — no message waits for a worker that sleeps

`push` unlocks before it notifies, and a worker tries `try_pop` under one lock section and waits under another.
`WorkerPool` has a program counter for each producer and each worker, and takes the lock sections, the release
of the mutex in `condition_.wait`, `notify_one` and spurious wakeups as its events; which waiting worker a
notification wakes is part of the event.

A message can be taken from under a worker that was woken for it, so there is no pairing of messages with
notifications. What survives is a count (`Covered`): while some worker is parked, the queue is no longer than
the notifications still to be issued and the workers woken but not yet back. A worker parks only on an empty
queue, which is why nothing need be known while nobody is parked.
-/

namespace BServer

/-- Where a producer is in `push`. -/
inductive ProducerStage where
  | idle
  /-- the message is queued and the mutex released, `notify_one` is still to come -/
  | unlocked
deriving DecidableEq, Repr

/-- Where a worker is in `task_base::work`. -/
inductive WorkerStage where
  /-- about to call `try_pop` -/
  | polling
  /-- `try_pop` found nothing, `wait_and_pop` does not hold the mutex yet -/
  | entering
  /-- in `condition_.wait`, neither notified nor woken -/
  | parked
  /-- woken, and not yet back in possession of the mutex -/
  | woken
  /-- in `do_work` -/
  | working
  /-- left the loop -/
  | ended
deriving DecidableEq, Repr

structure WorkerPool where
  queue     : TaskQueue
  producers : List ProducerStage
  workers   : List WorkerStage

namespace WorkerPool

/-- All producers outside `push`, all workers at the top of their loop. -/
def start (producers workers : Nat) : WorkerPool :=
  ⟨.empty, List.replicate producers .idle, List.replicate workers .polling⟩

inductive Event where
  /-- producer `p` appends a message and unlocks -/
  | push (p : Nat) (m : MessageFormat)
  /-- producer `p` calls `notify_one`, which wakes worker `j`, or nobody when nobody waits -/
  | notify (p : Nat) (j : Option Nat)
  /-- worker `j` runs `try_pop` -/
  | tryPop (j : Nat)
  /-- worker `j` has the mutex in `wait_and_pop`, for the first time or again, and tests the loop condition -/
  | waitAndPop (j : Nat)
  /-- a spurious wakeup -/
  | spurious (j : Nat)
  /-- worker `j` comes back from `do_work` -/
  | worked (j : Nat)
  /-- worker `j` finds `stop_` set at the top of its loop -/
  | leave (j : Nat)
  /-- `stop` -/
  | stop
  /-- `notifiy_all` -/
  | notifyAll

/-- What `wait_and_pop` makes of a worker that has the mutex. -/
def afterWait (w : WorkerPool) (j : Nat) : WorkerPool :=
  match w.queue.waitAndPop with
  | (.blocked, q)  => { w with queue := q, workers := w.workers.set j .parked }
  | (.stopped, q)  => { w with queue := q, workers := w.workers.set j .ended }
  | (.popped _, q) => { w with queue := q, workers := w.workers.set j .working }

def step (taskQueueMax : Nat) (w : WorkerPool) : Event → Option WorkerPool
  | .push p m =>
      if w.producers[p]? = some .idle then
        some { w with queue := w.queue.push m, producers := w.producers.set p .unlocked }
      else none
  | .notify p none =>
      if w.producers[p]? = some .unlocked ∧ .parked ∉ w.workers then
        some { w with producers := w.producers.set p .idle }
      else none
  | .notify p (some j) =>
      if w.producers[p]? = some .unlocked ∧ w.workers[j]? = some .parked then
        some { w with producers := w.producers.set p .idle, workers := w.workers.set j .woken }
      else none
  | .tryPop j =>
      if w.workers[j]? = some .polling then
        match w.queue.tryPop taskQueueMax with
        | (none, q)   => some { w with queue := q, workers := w.workers.set j .entering }
        | (some _, q) => some { w with queue := q, workers := w.workers.set j .working }
      else none
  | .waitAndPop j =>
      if w.workers[j]? = some .entering ∨ w.workers[j]? = some .woken then some (w.afterWait j) else none
  | .spurious j =>
      if w.workers[j]? = some .parked then some { w with workers := w.workers.set j .woken } else none
  | .worked j =>
      if w.workers[j]? = some .working then some { w with workers := w.workers.set j .polling } else none
  | .leave j =>
      if w.workers[j]? = some .polling ∧ w.queue.stop = true then
        some { w with workers := w.workers.set j .ended }
      else none
  | .stop => some { w with queue := w.queue.setStop }
  | .notifyAll =>
      some { w with workers := w.workers.map (fun s => if s = .parked then .woken else s) }

/-! ## The counts -/

/-- Notifications that a `push` has still to issue. -/
def pending (w : WorkerPool) : Nat := w.producers.count .unlocked

/-- Workers woken and not yet back in possession of the mutex. -/
def woken (w : WorkerPool) : Nat := w.workers.count .woken

def parked (w : WorkerPool) : Nat := w.workers.count .parked

/-- One thread moves on: it leaves one stage and enters another. -/
theorem count_set_add {α : Type} [DecidableEq α] {l : List α} {i : Nat} {a : α} (h : l[i]? = some a)
    (b c : α) :
    (l.set i b).count c + (if a = c then 1 else 0) = l.count c + (if b = c then 1 else 0) := by
  induction l generalizing i with
  | nil => cases h
  | cons x l ih =>
      cases i with
      | zero =>
          cases h
          simp only [List.set_cons_zero, List.count_cons, beq_iff_eq]
          omega
      | succ i =>
          have hrest := ih (i := i) h
          simp only [List.set_cons_succ, List.count_cons]
          omega

/-- A worker in some stage is counted there. -/
theorem count_pos_of_getElem? {α : Type} [DecidableEq α] {l : List α} {i : Nat} {a : α}
    (h : l[i]? = some a) : 0 < l.count a := List.count_pos_iff.mpr (List.mem_of_getElem? h)

/-- **The invariant.** Until `stop_` is set: while some worker is parked, every queued message is covered by a
    notification to come or a worker on its way back. -/
def Covered (w : WorkerPool) : Prop :=
  w.queue.stop = false → 0 < w.parked → w.queue.deque.length ≤ w.pending + w.woken

theorem covered_start (producers workers : Nat) : Covered (start producers workers) := by
  intro _ _
  exact Nat.zero_le _

/-- A worker takes a message: with it goes at most one of those counted as woken. -/
theorem Covered.taken {w : WorkerPool} (h : Covered w) {j : Nat} {stage : WorkerStage}
    (hj : w.workers[j]? = some stage) (hstage : stage ≠ .parked) {m : MessageFormat} {ms : List MessageFormat}
    (hq : w.queue.deque = m :: ms) :
    Covered { w with queue := { w.queue with deque := ms }, workers := w.workers.set j .working } := by
  intro hstop hparked
  have hp := count_set_add hj .working .parked
  have hw := count_set_add hj .working .woken
  simp only [reduceCtorEq, if_false, if_neg hstage] at hp hw
  have hbefore := h hstop
  rw [hq, List.length_cons] at hbefore
  simp only [pending, woken, parked] at hbefore hparked ⊢
  split at hw
  · omega
  · omega

/-- A worker that has the mutex parks on an empty queue, or takes a message. -/
theorem Covered.afterWait {w : WorkerPool} (h : Covered w) {j : Nat}
    (hj : w.workers[j]? = some .entering ∨ w.workers[j]? = some .woken) : Covered (w.afterWait j) := by
  unfold WorkerPool.afterWait
  rcases TaskQueue.waitAndPop_cases w.queue with ⟨hempty, hwait⟩ | ⟨hset, hwait⟩ | ⟨m, ms, hq, hwait⟩
  · rw [hwait]
    intro _ _
    show w.queue.deque.length ≤ _
    rw [hempty]
    exact Nat.zero_le _
  · rw [hwait]
    intro hstop _
    rw [show w.queue.stop = false from hstop] at hset
    cases hset
  · rw [hwait]
    rcases hj with hj | hj
    · exact h.taken hj (by decide) hq
    · exact h.taken hj (by decide) hq

theorem Covered.step {taskQueueMax : Nat} {w w' : WorkerPool} {e : Event} (h : Covered w)
    (hs : WorkerPool.step taskQueueMax w e = some w') : Covered w' := by
  cases e with
  | push p m =>
      simp only [WorkerPool.step, Option.ite_none_right_eq_some, Option.some.injEq] at hs
      obtain ⟨hp, rfl⟩ := hs
      intro hstop hparked
      have hbefore := h hstop hparked
      have hpending := count_set_add hp .unlocked .unlocked
      simp only [reduceCtorEq, if_false, if_true] at hpending
      simp only [pending, woken] at hbefore ⊢
      show (w.queue.deque ++ [m]).length ≤ _
      rw [List.length_append, List.length_singleton]
      omega
  | notify p j =>
      cases j with
      | none =>
          simp only [WorkerPool.step, Option.ite_none_right_eq_some, Option.some.injEq] at hs
          obtain ⟨⟨_, hnobody⟩, rfl⟩ := hs
          intro _ hparked
          exact absurd (List.count_pos_iff.mp hparked) hnobody
      | some j =>
          simp only [WorkerPool.step, Option.ite_none_right_eq_some, Option.some.injEq] at hs
          obtain ⟨⟨hp, hj⟩, rfl⟩ := hs
          intro hstop hparked
          have hbefore := h hstop (count_pos_of_getElem? hj)
          have hpending := count_set_add hp .idle .unlocked
          have hwoken := count_set_add hj .woken .woken
          simp only [reduceCtorEq, if_false, if_true] at hpending hwoken
          simp only [pending, woken] at hbefore ⊢
          omega
  | tryPop j =>
      simp only [WorkerPool.step, Option.ite_none_right_eq_some] at hs
      obtain ⟨hj, hs⟩ := hs
      obtain ⟨⟨deque, stop⟩, producers, workers⟩ := w
      cases deque with
      | nil =>
          cases hs
          intro _ _
          exact Nat.zero_le _
      | cons m ms =>
          cases hs
          exact h.taken hj (by decide) rfl
  | waitAndPop j =>
      simp only [WorkerPool.step, Option.ite_none_right_eq_some, Option.some.injEq] at hs
      obtain ⟨hj, rfl⟩ := hs
      exact h.afterWait hj
  | spurious j =>
      simp only [WorkerPool.step, Option.ite_none_right_eq_some, Option.some.injEq] at hs
      obtain ⟨hj, rfl⟩ := hs
      intro hstop _
      have hbefore := h hstop (count_pos_of_getElem? hj)
      have hwoken := count_set_add hj .woken .woken
      simp only [reduceCtorEq, if_false, if_true] at hwoken
      simp only [pending, woken] at hbefore ⊢
      omega
  | worked j =>
      simp only [WorkerPool.step, Option.ite_none_right_eq_some, Option.some.injEq] at hs
      obtain ⟨hj, rfl⟩ := hs
      intro hstop hparked
      have hp := count_set_add hj .polling .parked
      have hw := count_set_add hj .polling .woken
      simp only [reduceCtorEq, if_false] at hp hw
      have hbefore := h hstop
      simp only [pending, woken, parked] at hbefore hparked ⊢
      omega
  | leave j =>
      simp only [WorkerPool.step, Option.ite_none_right_eq_some, Option.some.injEq] at hs
      obtain ⟨⟨_, hset⟩, rfl⟩ := hs
      intro hstop _
      rw [show w.queue.stop = false from hstop] at hset
      cases hset
  | stop =>
      cases hs
      intro hstop _
      cases hstop
  | notifyAll =>
      cases hs
      intro _ hparked
      -- nobody is parked any more
      obtain ⟨s, _, hs⟩ := List.mem_map.mp (List.count_pos_iff.mp hparked)
      split at hs
      · cases hs
      · next hne => exact absurd hs hne

/-- **No lost wakeup.** In every reachable state before `stop_` is set in which some worker is parked
    un-notified, the queued messages number at most the notifications still to be issued and the workers woken
    but not yet back. In particular the queue is empty when every worker is parked and no notification is
    pending. -/
theorem no_lost_wakeup (taskQueueMax producers workers : Nat) (es : List Event) (w : WorkerPool)
    (hrun : Run.run (step taskQueueMax) (start producers workers) es = some w)
    (hstop : w.queue.stop = false) (hparked : .parked ∈ w.workers) :
    w.queue.deque.length ≤ w.pending + w.woken ∧
    ((∀ s ∈ w.workers, s = .parked) → w.pending = 0 → w.queue.deque = []) := by
  have hcovered : Covered w :=
    Run.run_invariant (step taskQueueMax) (covered_start producers workers) (fun _ _ _ h hs => h.step hs) hrun
  have hle := hcovered hstop (List.count_pos_iff.mpr hparked)
  refine ⟨hle, ?_⟩
  intro hall hpending
  have hwoken : w.woken = 0 := by
    refine List.count_eq_zero.mpr (fun hmem => ?_)
    cases hall _ hmem
  rw [hpending, hwoken] at hle
  exact List.length_eq_zero_iff.mp (Nat.le_zero.mp hle)

/-- One producer and two workers, both parked; a message is queued and its notification is still to come. -/
theorem no_lost_wakeup_unlocked :
    let w : WorkerPool := ⟨⟨[.new], false⟩, [.unlocked], [.parked, .parked]⟩
    w.queue.deque.length ≤ w.pending + w.woken ∧
    ((∀ s ∈ w.workers, s = .parked) → w.pending = 0 → w.queue.deque = []) :=
  no_lost_wakeup 10 1 2 [.tryPop 0, .waitAndPop 0, .tryPop 1, .waitAndPop 1, .push 0 .new] _ rfl rfl
    List.mem_cons_self

end WorkerPool

end BServer
