import BServer.Task.TaskBase

/-!
# `Task.Shutdown` — that every worker leaves, and with how much undone

`io_service_provide::stop` sets `stop_`, notifies all, and interrupts the threads of the workers before it joins
them. `stop` does not lock, so it may come between a worker's test of the loop condition in `wait_and_pop` and the
wait itself, and so may the notification: then the worker parks although `stop_` is set, and nobody is going to
notify it. What gets it out is the interruption, which `condition_.wait` looks for before it parks and after it
wakes. So the two are steps of their own here, and the mutex is held between them (`TaskThreads.locked`).

After the three calls every worker has few steps left, whatever the others do (`everyone_leaves`). It may still
take one message, if it was past the test of `stop_` at the top of its loop; all others stay in the queue.
-/

namespace BServer

/-- Where a worker is in `task_base::work`. -/
inductive LoopStage where
  /-- about to test `1 && !stop_` -/
  | top
  /-- at `interruption_point` -/
  | point
  /-- about to call `try_pop` -/
  | polling
  /-- `try_pop` found nothing -/
  | entering
  /-- in `wait_and_pop` with the mutex: the loop condition held, and `condition_.wait` comes next -/
  | tested
  | parked
  /-- woken, and without the mutex yet -/
  | woken
  /-- in `do_work` -/
  | working
  /-- left `work` -/
  | ended
deriving DecidableEq, Repr

/-- A worker, and whether `interrupt` was called on its thread. -/
structure LoopThread where
  stage       : LoopStage
  interrupted : Bool
deriving DecidableEq, Repr

/-- The queue, the workers, and what they popped so far. -/
structure TaskThreads where
  queue   : TaskQueue
  threads : List LoopThread
  popped  : List Task

namespace TaskThreads

def start (threads : Nat) : TaskThreads := ⟨.empty, List.replicate threads ⟨.top, false⟩, []⟩

inductive Event where
  /-- the test at the top of the loop -/
  | loop (j : Nat)
  | interruptionPoint (j : Nat)
  | tryPop (j : Nat)
  /-- takes the mutex in `wait_and_pop`, for the first time or in `condition_.wait`, and tests the loop condition -/
  | lockWait (j : Nat)
  /-- enters `condition_.wait` -/
  | wait (j : Nat)
  /-- comes back from `do_work` -/
  | worked (j : Nat)
  | push (m : MessageFormat)
  /-- a `notify_one`, or a spurious wakeup -/
  | wake (j : Nat)
  /-- `task_base::stop` -/
  | stop
  /-- `task_base::notifiy_all` -/
  | notifyAll
  /-- `task_.interrupt_all()` -/
  | interruptAll

/-- The steps a worker makes by itself. -/
def Event.own : Event → Bool
  | loop _ | interruptionPoint _ | tryPop _ | lockWait _ | wait _ | worked _ => true
  | _ => false

/-- A worker has the mutex. -/
def locked (w : TaskThreads) : Bool := w.threads.any (fun t => t.stage = .tested)

/-- Worker `j` is at another stage. -/
def moved (w : TaskThreads) (j : Nat) (t : LoopThread) (stage : LoopStage) : TaskThreads :=
  { w with threads := w.threads.set j { t with stage := stage } }

/-- What `wait_and_pop` makes of a worker that has the mutex. -/
def afterTest (w : TaskThreads) (j : Nat) (t : LoopThread) : TaskThreads :=
  match w.queue.waitAndPop with
  | (.blocked, _)     => w.moved j t .tested
  | (.stopped, _)     => w.moved j t .ended
  | (.popped task, q) => { w.moved j t .working with queue := q, popped := w.popped ++ [task] }

def step (taskQueueMax : Nat) (w : TaskThreads) : Event → Option TaskThreads
  | .loop j =>
      match w.threads[j]? with
      | some ⟨.top, i⟩ => some (w.moved j ⟨.top, i⟩ (if w.queue.stop then .ended else .point))
      | _ => none
  | .interruptionPoint j =>
      match w.threads[j]? with
      | some ⟨.point, i⟩ => some (w.moved j ⟨.point, i⟩ (if i then .ended else .polling))
      | _ => none
  | .tryPop j =>
      match w.threads[j]? with
      | some ⟨.polling, i⟩ =>
          if w.locked then none
          else match w.queue.tryPop taskQueueMax with
            | (none, _)      => some (w.moved j ⟨.polling, i⟩ .entering)
            | (some task, q) =>
                some { w.moved j ⟨.polling, i⟩ .working with queue := q, popped := w.popped ++ [task] }
      | _ => none
  | .lockWait j =>
      match w.threads[j]? with
      | some ⟨.entering, i⟩ => if w.locked then none else some (w.afterTest j ⟨.entering, i⟩)
      | some ⟨.woken, i⟩ =>
          if w.locked then none
          else some (if i then w.moved j ⟨.woken, i⟩ .ended else w.afterTest j ⟨.woken, i⟩)
      | _ => none
  | .wait j =>
      match w.threads[j]? with
      | some ⟨.tested, i⟩ => some (w.moved j ⟨.tested, i⟩ (if i then .ended else .parked))
      | _ => none
  | .worked j =>
      match w.threads[j]? with
      | some ⟨.working, i⟩ => some (w.moved j ⟨.working, i⟩ .top)
      | _ => none
  | .push m => if w.locked then none else some { w with queue := w.queue.push m }
  | .wake j =>
      match w.threads[j]? with
      | some ⟨.parked, i⟩ => some (w.moved j ⟨.parked, i⟩ .woken)
      | _ => none
  | .stop => some { w with queue := w.queue.setStop }
  | .notifyAll =>
      some { w with threads := w.threads.map (fun t => if t.stage = .parked then { t with stage := .woken } else t) }
  | .interruptAll =>
      -- a thread that waits on the condition is woken by it
      some { w with threads := w.threads.map (fun t =>
        ⟨if t.stage = .parked then .woken else t.stage, true⟩) }

/-! ## What a worker can do -/

/-- How a worker goes on, with `stop_` and its interruption as they are; `popped` says whether it takes a message. -/
inductive Moves (stop interrupted : Bool) : (popped : Bool) → LoopStage → LoopStage → Prop
  | leave (h : stop = true) : Moves stop interrupted false .top .ended
  | loop (h : stop = false) : Moves stop interrupted false .top .point
  | thrown (h : interrupted = true) : Moves stop interrupted false .point .ended
  | pass (h : interrupted = false) : Moves stop interrupted false .point .polling
  | found : Moves stop interrupted true .polling .working
  | nothing : Moves stop interrupted false .polling .entering
  | wokenUp (h : interrupted = true) : Moves stop interrupted false .woken .ended
  | stopped {s : LoopStage} (hs : s = .entering ∨ s = .woken) : Moves stop interrupted false s .ended
  | blocked {s : LoopStage} (hs : s = .entering ∨ s = .woken) (h : stop = false) :
      Moves stop interrupted false s .tested
  | taken {s : LoopStage} (hs : s = .entering ∨ s = .woken) (h : stop = false) :
      Moves stop interrupted true s .working
  | refused (h : interrupted = true) : Moves stop interrupted false .tested .ended
  | park (h : interrupted = false) : Moves stop interrupted false .tested .parked
  | worked : Moves stop interrupted false .working .top

/-- A step of a worker: it goes on, and takes the first message or leaves the queue as it is. -/
structure WorkerStep (w w' : TaskThreads) (j : Nat) (t : LoopThread) (popped : Bool) (stage : LoopStage) : Prop where
  here    : w.threads[j]? = some t
  moves   : Moves w.queue.stop t.interrupted popped t.stage stage
  threads : w'.threads = w.threads.set j { t with stage := stage }
  stop    : w'.queue.stop = w.queue.stop
  count   : w'.popped.length = w.popped.length + if popped then 1 else 0

variable {taskQueueMax : Nat} {w w' : TaskThreads}

theorem afterTest_step {j : Nat} {t : LoopThread} (h : w.threads[j]? = some t)
    (hs : t.stage = .entering ∨ t.stage = .woken) :
    ∃ popped stage, WorkerStep w (w.afterTest j t) j t popped stage := by
  rcases hstop : w.queue.stop with _ | _
  · rcases hdeque : w.queue.deque with _ | ⟨m, ms⟩
    · have hwait : w.queue.waitAndPop = (.blocked, w.queue) := by
        rw [TaskQueue.waitAndPop, hstop, hdeque]
        rfl
      refine ⟨false, .tested, h, .blocked hs hstop, ?_, ?_, ?_⟩
      · simp only [afterTest, hwait, moved]
      · simp only [afterTest, hwait, moved]
      · simp [afterTest, hwait, moved]
    · have hwait : w.queue.waitAndPop
          = (.popped (TaskQueue.taskOf m m.meetHead), { w.queue with deque := ms }) := by
        rw [TaskQueue.waitAndPop, hdeque, if_neg (by rw [hstop]; exact Bool.false_ne_true)]
      refine ⟨true, .working, h, .taken hs hstop, ?_, ?_, ?_⟩
      · simp only [afterTest, hwait, moved]
      · simp only [afterTest, hwait, moved]
      · simp [afterTest, hwait, moved]
  · have hwait : w.queue.waitAndPop = (.stopped, w.queue) := by
      rw [TaskQueue.waitAndPop, hstop]
      rfl
    refine ⟨false, .ended, h, .stopped hs, ?_, ?_, ?_⟩
    · simp only [afterTest, hwait, moved]
    · simp only [afterTest, hwait, moved]
    · simp [afterTest, hwait, moved]

/-- Going on without a pop. -/
theorem moved_step {j : Nat} {t : LoopThread} {stage : LoopStage} (h : w.threads[j]? = some t)
    (hm : Moves w.queue.stop t.interrupted false t.stage stage) :
    WorkerStep w (w.moved j t stage) j t false stage := ⟨h, hm, rfl, rfl, rfl⟩

/-- **What a step of a worker does.** -/
theorem own_cases {e : Event} (he : e.own = true) (hs : step taskQueueMax w e = some w') :
    ∃ j t popped stage, WorkerStep w w' j t popped stage := by
  cases e with
  | loop j =>
      simp only [step] at hs
      split at hs
      · next i h =>
          cases hs
          cases hstop : w.queue.stop with
          | true => exact ⟨j, _, false, .ended, moved_step h (.leave hstop)⟩
          | false => exact ⟨j, _, false, .point, moved_step h (.loop hstop)⟩
      · cases hs
  | interruptionPoint j =>
      simp only [step] at hs
      split at hs
      · next i h =>
          cases hs
          cases i with
          | true => exact ⟨j, _, false, .ended, moved_step h (.thrown rfl)⟩
          | false => exact ⟨j, _, false, .polling, moved_step h (.pass rfl)⟩
      · cases hs
  | tryPop j =>
      simp only [step] at hs
      split at hs
      · next i h =>
          split at hs
          · cases hs
          · rcases hdeque : w.queue.deque with _ | ⟨m, ms⟩
            · have htry : w.queue.tryPop taskQueueMax = (none, w.queue) := by
                rw [TaskQueue.tryPop, hdeque]
              rw [htry] at hs
              cases hs
              exact ⟨j, _, false, .entering, moved_step h .nothing⟩
            · obtain ⟨task, htry⟩ : ∃ task, w.queue.tryPop taskQueueMax = (some task, { w.queue with deque := ms }) := by
                rw [TaskQueue.tryPop, hdeque]
                exact ⟨_, rfl⟩
              rw [htry] at hs
              cases hs
              refine ⟨j, _, true, .working, h, .found, rfl, rfl, ?_⟩
              exact List.length_append
      · cases hs
  | lockWait j =>
      simp only [step] at hs
      split at hs
      · next i h =>
          split at hs
          · cases hs
          · cases hs
            exact ⟨j, _, afterTest_step h (Or.inl rfl)⟩
      · next i h =>
          split at hs
          · cases hs
          · cases hs
            cases i with
            | true => exact ⟨j, _, false, .ended, moved_step h (.wokenUp rfl)⟩
            | false => exact ⟨j, _, afterTest_step h (Or.inr rfl)⟩
      · cases hs
  | wait j =>
      simp only [step] at hs
      split at hs
      · next i h =>
          cases hs
          cases i with
          | true => exact ⟨j, _, false, .ended, moved_step h (.refused rfl)⟩
          | false => exact ⟨j, _, false, .parked, moved_step h (.park rfl)⟩
      · cases hs
  | worked j =>
      simp only [step] at hs
      split at hs
      · next i h =>
          cases hs
          exact ⟨j, _, false, .top, moved_step h .worked⟩
      · cases hs
  | push m => cases he
  | wake j => cases he
  | stop => cases he
  | notifyAll => cases he
  | interruptAll => cases he

/-- What the others do to a worker: it may be woken, and it may be interrupted. -/
def Touched (t t' : LoopThread) : Prop :=
  (t'.stage = t.stage ∨ t.stage = .parked ∧ t'.stage = .woken) ∧ (t.interrupted = true → t'.interrupted = true)

theorem Touched.refl (t : LoopThread) : Touched t t := ⟨Or.inl rfl, id⟩

theorem forall₂_touched_refl (ts : List LoopThread) : List.Forall₂ Touched ts ts :=
  List.forall₂_same.mpr fun t _ => .refl t

theorem forall₂_touched_set {ts : List LoopThread} {j : Nat} {t t' : LoopThread} (h : ts[j]? = some t)
    (ht : Touched t t') : List.Forall₂ Touched ts (ts.set j t') := by
  induction ts generalizing j with
  | nil => cases h
  | cons a ts ih =>
      cases j with
      | zero =>
          cases h
          exact .cons ht (forall₂_touched_refl ts)
      | succ j => exact .cons (.refl a) (ih h)

theorem forall₂_touched_map {f : LoopThread → LoopThread} (h : ∀ t, Touched t (f t)) (ts : List LoopThread) :
    List.Forall₂ Touched ts (ts.map f) :=
  List.forall₂_map_right_iff.mpr (List.forall₂_same.mpr fun t _ => h t)

/-- **What the others do.** They pop nothing, take `stop_` back never, and wake or interrupt workers. -/
structure OtherStep (w w' : TaskThreads) : Prop where
  popped  : w'.popped = w.popped
  stop    : w.queue.stop = true → w'.queue.stop = true
  threads : List.Forall₂ Touched w.threads w'.threads

theorem other_cases {e : Event} (he : e.own = false) (hs : step taskQueueMax w e = some w') : OtherStep w w' := by
  cases e with
  | push m =>
      simp only [step] at hs
      split at hs
      · cases hs
      · cases hs
        exact ⟨rfl, id, forall₂_touched_refl _⟩
  | wake j =>
      simp only [step] at hs
      split at hs
      · next i h =>
          cases hs
          exact ⟨rfl, id, forall₂_touched_set h ⟨Or.inr ⟨rfl, rfl⟩, id⟩⟩
      · cases hs
  | stop =>
      cases hs
      exact ⟨rfl, fun _ => rfl, forall₂_touched_refl _⟩
  | notifyAll =>
      cases hs
      refine ⟨rfl, id, forall₂_touched_map (fun t => ?_) _⟩
      split
      · next h => exact ⟨Or.inr ⟨h, rfl⟩, id⟩
      · exact .refl t
  | interruptAll =>
      cases hs
      refine ⟨rfl, id, forall₂_touched_map (fun t => ⟨?_, fun _ => rfl⟩) _⟩
      by_cases h : t.stage = .parked
      · exact Or.inr ⟨h, if_pos h⟩
      · exact Or.inl (if_neg h)
  | loop j => cases he
  | interruptionPoint j => cases he
  | tryPop j => cases he
  | lockWait j => cases he
  | wait j => cases he
  | worked j => cases he

theorem length_threads {e : Event} (hs : step taskQueueMax w e = some w') :
    w'.threads.length = w.threads.length := by
  cases he : e.own with
  | true =>
      obtain ⟨j, t, popped, stage, h⟩ := own_cases he hs
      rw [h.threads, List.length_set]
  | false => exact (other_cases he hs).threads.length_eq.symm

/-! ## After `stop_` is set -/

/-- Nothing takes `stop_` back. -/
theorem stop_kept {e : Event} (h : w.queue.stop = true) (hs : step taskQueueMax w e = some w') :
    w'.queue.stop = true := by
  cases he : e.own with
  | true =>
      obtain ⟨j, t, popped, stage, hstep⟩ := own_cases he hs
      exact hstep.stop.trans h
  | false => exact (other_cases he hs).stop h

/-- A worker that got past the test at the top of the loop, and has not tried the queue yet. -/
def ahead (t : LoopThread) : Nat := if t.stage = .point ∨ t.stage = .polling then 1 else 0

theorem Touched.ahead_eq {t t' : LoopThread} (h : Touched t t') : ahead t' = ahead t := by
  obtain ⟨hstage | ⟨hp, hw⟩, _⟩ := h
  · rw [ahead, ahead, hstage]
  · simp [ahead, hp, hw]

/-- A worker takes a message only if it got past the test before. -/
theorem Moves.ahead_le {interrupted popped : Bool} {a b : LoopStage} (h : Moves true interrupted popped a b) :
    (if popped then 1 else 0) + ahead ⟨b, interrupted⟩ ≤ ahead ⟨a, interrupted⟩ := by
  cases h with
  | leave => decide +revert
  | loop h => cases h
  | thrown => simp [ahead]
  | pass => simp [ahead]
  | found => simp [ahead]
  | nothing => simp [ahead]
  | wokenUp => simp [ahead]
  | stopped hs => simp [ahead]
  | blocked hs h => cases h
  | taken hs h => cases h
  | refused => simp [ahead]
  | park => simp [ahead]
  | worked => simp [ahead]

/-- Each message taken after `stop_` was set uses up one of those workers. -/
theorem popped_ahead_le {e : Event} (h : w.queue.stop = true) (hs : step taskQueueMax w e = some w') :
    w'.popped.length + Run.total ahead w'.threads ≤ w.popped.length + Run.total ahead w.threads := by
  cases he : e.own with
  | true =>
      obtain ⟨j, t, popped, stage, hstep⟩ := own_cases he hs
      have hset := Run.total_set ahead hstep.here { t with stage := stage }
      have hmoves := hstep.moves
      rw [h] at hmoves
      have hle := hmoves.ahead_le
      have hcount := hstep.count
      have ht : (⟨t.stage, t.interrupted⟩ : LoopThread) = t := rfl
      rw [ht] at hle
      rw [hstep.threads]
      omega
  | false =>
      have hstep := other_cases he hs
      have htotal := Run.total_forall₂_le ahead (fun _ _ ht => Nat.le_of_eq ht.ahead_eq) hstep.threads
      rw [hstep.popped]
      omega

/-! ## After the workers were interrupted as well -/

/-- `stop_` is set, and every worker interrupted; nobody waits. -/
structure Shut (w : TaskThreads) : Prop where
  stop    : w.queue.stop = true
  threads : ∀ t ∈ w.threads, t.interrupted = true ∧ t.stage ≠ .parked

theorem Shut.interruptAll (h : w.queue.stop = true) (hs : step taskQueueMax w .interruptAll = some w') :
    Shut w' := by
  cases hs
  refine ⟨h, fun t ht => ?_⟩
  obtain ⟨t, _, rfl⟩ := List.mem_map.mp ht
  refine ⟨rfl, ?_⟩
  by_cases hp : t.stage = .parked
  · simp [hp]
  · simp [hp]

/-- How many steps a worker has left. -/
def left (t : LoopThread) : Nat :=
  match t.stage with
  | .ended | .parked => 0
  | .polling         => 3
  | .working         => 2
  | _                => 1

/-- A worker that was interrupted does not park, and is a step closer to its end. -/
theorem Moves.left_lt {popped : Bool} {a b : LoopStage} (h : Moves true true popped a b) :
    left ⟨b, true⟩ < left ⟨a, true⟩ ∧ b ≠ .parked := by
  cases h with
  | leave => decide
  | loop h => cases h
  | thrown => decide
  | pass h => cases h
  | found => decide
  | nothing => decide
  | wokenUp => decide
  | stopped hs =>
      rcases hs with rfl | rfl
      · decide
      · decide
  | blocked hs h => cases h
  | taken hs h => cases h
  | refused => decide
  | park h => cases h
  | worked => decide

theorem Shut.step {e : Event} (h : Shut w) (hs : step taskQueueMax w e = some w') : Shut w' := by
  refine ⟨stop_kept h.stop hs, ?_⟩
  cases he : e.own with
  | true =>
      obtain ⟨j, t, popped, stage, hstep⟩ := own_cases he hs
      obtain ⟨hint, _⟩ := h.threads t (List.mem_of_getElem? hstep.here)
      have hmoves := hstep.moves
      rw [h.stop, hint] at hmoves
      rw [hstep.threads]
      intro t' ht'
      rcases List.mem_or_eq_of_mem_set ht' with ht' | rfl
      · exact h.threads t' ht'
      · exact ⟨hint, hmoves.left_lt.2⟩
  | false =>
      intro t' ht'
      obtain ⟨j, hj⟩ := List.getElem?_of_mem ht'
      obtain ⟨t, ht, htouched⟩ := Run.forall₂_getElem? (other_cases he hs).threads hj
      obtain ⟨hint, hp⟩ := h.threads t (List.mem_of_getElem? ht)
      refine ⟨htouched.2 hint, ?_⟩
      rcases htouched.1 with hstage | ⟨hparked, _⟩
      · rw [hstage]
        exact hp
      · exact absurd hparked hp

/-- Every worker left its loop. -/
def Ended (w : TaskThreads) : Prop := ∀ t ∈ w.threads, t.stage = .ended

theorem Shut.own_left_lt {e : Event} (h : Shut w) (he : e.own = true) (hs : TaskThreads.step taskQueueMax w e = some w') :
    Run.total left w'.threads < Run.total left w.threads := by
  obtain ⟨j, t, popped, stage, hstep⟩ := own_cases he hs
  obtain ⟨hint, _⟩ := h.threads t (List.mem_of_getElem? hstep.here)
  have hmoves := hstep.moves
  rw [h.stop, hint] at hmoves
  have hlt := hmoves.left_lt.1
  have hset := Run.total_set left hstep.here { t with stage := stage }
  have hfrom : left ⟨t.stage, true⟩ = left t := by cases t; rfl
  have hto : left ⟨stage, true⟩ = left { t with stage := stage } := rfl
  rw [hfrom, hto] at hlt
  rw [hstep.threads]
  omega

theorem Touched.left_eq {t t' : LoopThread} (h : Touched t t') (hp : t.stage ≠ .parked) : left t' = left t := by
  rcases h.1 with hstage | ⟨hparked, _⟩
  · rw [left, left, hstage]
  · exact absurd hparked hp

theorem Shut.left_le {e : Event} (h : Shut w) (hs : TaskThreads.step taskQueueMax w e = some w') :
    Run.total left w'.threads ≤ Run.total left w.threads := by
  cases he : e.own with
  | true => exact Nat.le_of_lt (h.own_left_lt he hs)
  | false =>
      have hothers := (other_cases he hs).threads
      -- nobody is parked, so nobody is woken
      have hall : ∀ t ∈ w.threads, t.stage ≠ .parked := fun t ht => (h.threads t ht).2
      generalize w.threads = ts at hothers hall
      generalize w'.threads = us at hothers
      induction hothers with
      | nil => exact Nat.le_refl 0
      | cons ht _ ih =>
          obtain ⟨hp, hall⟩ := List.forall_mem_cons.mp hall
          rw [Run.total_cons, Run.total_cons, ht.left_eq hp]
          exact Nat.add_le_add_left (ih hall) _

/-- **Nobody is stuck.** A worker that has the mutex can go on, and where none has it every worker can. -/
theorem Shut.exists_own (taskQueueMax : Nat) (h : Shut w) (hnot : ¬ Ended w) :
    ∃ e w', e.own = true ∧ TaskThreads.step taskQueueMax w e = some w' := by
  have hgo : ∀ e : Event, e.own = true → TaskThreads.step taskQueueMax w e ≠ none →
      ∃ e w', e.own = true ∧ TaskThreads.step taskQueueMax w e = some w' := by
    intro e he hne
    obtain ⟨w', hw'⟩ := Option.ne_none_iff_exists'.mp hne
    exact ⟨e, w', he, hw'⟩
  cases hlocked : w.locked with
  | true =>
      obtain ⟨t, ht, hstage⟩ := List.any_eq_true.mp hlocked
      obtain ⟨j, hj⟩ := List.getElem?_of_mem ht
      obtain ⟨stage, i⟩ := t
      obtain rfl : stage = .tested := of_decide_eq_true hstage
      exact hgo (.wait j) rfl (by simp [TaskThreads.step, hj])
  | false =>
      obtain ⟨t, ht, hstage⟩ : ∃ t ∈ w.threads, t.stage ≠ .ended := by
        by_contra hnone
        refine hnot fun t ht => ?_
        by_contra hne
        exact hnone ⟨t, ht, hne⟩
      obtain ⟨j, hj⟩ := List.getElem?_of_mem ht
      have hparked := (h.threads t ht).2
      obtain ⟨stage, i⟩ := t
      cases stage with
      | top => exact hgo (.loop j) rfl (by simp [TaskThreads.step, hj])
      | point => exact hgo (.interruptionPoint j) rfl (by simp [TaskThreads.step, hj])
      | polling =>
          refine hgo (.tryPop j) rfl ?_
          simp only [TaskThreads.step, hj, hlocked, Bool.false_eq_true, if_false]
          split
          · exact Option.some_ne_none _
          · exact Option.some_ne_none _
      | entering => exact hgo (.lockWait j) rfl (by simp [TaskThreads.step, hj, hlocked])
      | tested => exact hgo (.wait j) rfl (by simp [TaskThreads.step, hj])
      | parked => exact absurd rfl hparked
      | woken => exact hgo (.lockWait j) rfl (by simp [TaskThreads.step, hj, hlocked])
      | working => exact hgo (.worked j) rfl (by simp [TaskThreads.step, hj])
      | ended => exact absurd rfl hstage

theorem length_threads_run {es : List Event} (hrun : Run.run (TaskThreads.step taskQueueMax) w es = some w') :
    w'.threads.length = w.threads.length :=
  Run.run_invariant (TaskThreads.step taskQueueMax) (I := fun v => v.threads.length = w.threads.length) rfl
    (fun _ _ _ h hs => (length_threads hs).trans h) hrun

/-- **Everyone leaves.** Whatever happened before, between and after the calls of `io_service_provide::stop`: from
    the last of them on the `n` workers make at most `3 * n` steps, whatever the others do; where none of them can
    go on, all have left, and they can always be brought there by their own steps. And since `stop_` was set at
    most `n` messages were taken. -/
theorem everyone_leaves (taskQueueMax n : Nat) (es fs gs hs : List Event) (u v w : TaskThreads)
    (hbefore : Run.run (step taskQueueMax) (start n) es = some u)
    (hstop : Run.run (step taskQueueMax) u (.stop :: fs ++ .notifyAll :: gs ++ [.interruptAll]) = some v)
    (hafter : Run.run (step taskQueueMax) v hs = some w) :
    hs.countP Event.own ≤ 3 * n ∧
    ((∀ e, e.own = true → step taskQueueMax w e = none) → Ended w) ∧
    (∃ more x, Run.run (step taskQueueMax) w more = some x ∧ (∀ e ∈ more, e.own = true) ∧ Ended x) ∧
    w.popped.length ≤ u.popped.length + n := by
  obtain ⟨x, hx, hint⟩ := (Run.run_snoc (step taskQueueMax)).mp hstop
  obtain ⟨y, hy, hrest⟩ := Option.bind_eq_some_iff.mp hx
  change Run.run (step taskQueueMax) y (fs ++ .notifyAll :: gs) = some x at hrest
  -- once set, `stop_` stays set, and what the workers take is what they were ahead for
  have hpast : ∀ {z : TaskThreads} {ks : List Event}, Run.run (step taskQueueMax) y ks = some z →
      z.queue.stop = true ∧
        z.popped.length + Run.total ahead z.threads ≤ u.popped.length + Run.total ahead u.threads := by
    intro z ks hz
    refine Run.run_invariant (step taskQueueMax) (I := fun z : TaskThreads => z.queue.stop = true ∧
      z.popped.length + Run.total ahead z.threads ≤ u.popped.length + Run.total ahead u.threads) ?_ ?_ hz
    · cases hy
      exact ⟨rfl, Nat.le_refl _⟩
    · rintro a e b ⟨ha, hle⟩ hs
      exact ⟨stop_kept ha hs, Nat.le_trans (popped_ahead_le ha hs) hle⟩
  have hshut : Shut v := .interruptAll (hpast hrest).1 hint
  have hshut' : Shut w :=
    Run.run_invariant (step taskQueueMax) (I := Shut) hshut (fun _ _ _ h hs => h.step hs) hafter
  have hlength : ∀ {z : TaskThreads} {ks : List Event}, Run.run (step taskQueueMax) (start n) ks = some z →
      z.threads.length = n := fun hz => (length_threads_run hz).trans List.length_replicate
  refine ⟨?_, ?_, ?_, ?_⟩
  · have hcount := Run.countP_own_le (step taskQueueMax) Event.own (fun w => Run.total left w.threads) (I := Shut)
      (fun _ _ _ h hs => h.step hs) (fun _ _ _ h he hs => h.own_left_lt he hs) (fun _ _ _ h hs => h.left_le hs)
      hshut hafter
    have hbound : Run.total left v.threads ≤ 3 * v.threads.length := by
      refine Run.total_le left fun t _ => ?_
      cases hstage : t.stage <;> simp [left, hstage]
    have hn : v.threads.length = n := (length_threads_run hstop).trans (hlength hbefore)
    rw [hn] at hbound
    omega
  · intro hstuck
    by_contra hnot
    obtain ⟨e, w', he, hs⟩ := hshut'.exists_own taskQueueMax hnot
    rw [hstuck e he] at hs
    cases hs
  · obtain ⟨more, z, hrun, hended, _, hown⟩ := Run.finishes (step taskQueueMax) Event.own
      (fun w => Run.total left w.threads) Ended (I := Shut) (fun _ _ _ h hs => h.step hs)
      (fun _ _ _ h he hs => h.own_left_lt he hs) (fun _ h hnot => h.exists_own taskQueueMax hnot) hshut'
    exact ⟨more, z, hrun, hown, hended⟩
  · have hrun : Run.run (step taskQueueMax) y ((fs ++ .notifyAll :: gs) ++ .interruptAll :: hs) = some w := by
      rw [Run.run_append, hrest, Option.bind_some, Run.run, hint]
      exact hafter
    have hle := (hpast hrun).2
    have hahead : Run.total ahead u.threads ≤ 1 * u.threads.length := by
      refine Run.total_le ahead fun t _ => ?_
      unfold ahead
      split
      · exact Nat.le_refl 1
      · exact Nat.zero_le 1
    rw [hlength hbefore] at hahead
    omega

/-- The calls come between a worker's test and its wait; the interruption is what gets it out. -/
theorem everyone_leaves_tested : ∃ v w,
    Run.run (step 10) (start 1) ([.loop 0, .interruptionPoint 0, .tryPop 0, .lockWait 0] ++
      (.stop :: [] ++ .notifyAll :: [.wait 0] ++ [.interruptAll])) = some v ∧
    Run.run (step 10) v [.lockWait 0] = some w ∧
    [Event.lockWait 0].countP Event.own ≤ 3 * 1 ∧
    ((∀ e, e.own = true → step 10 w e = none) → Ended w) := by
  refine ⟨_, _, rfl, rfl, ?_⟩
  have h := everyone_leaves 10 1 [.loop 0, .interruptionPoint 0, .tryPop 0, .lockWait 0] [] [.wait 0] [.lockWait 0]
    _ _ _ rfl rfl rfl
  exact ⟨h.1, h.2.1⟩

/-- Without it the worker waits, with `stop_` set and nobody left to notify it. -/
example : (Run.run (step 10) (start 1) [.loop 0, .interruptionPoint 0, .tryPop 0, .lockWait 0, .stop, .notifyAll,
    .wait 0]).map (fun w => (w.threads, w.queue.stop)) = some ([⟨.parked, false⟩], true) := rfl

end TaskThreads

end BServer
