import BServer.System.ServedOnce

/-!
# `System.Drained` — what was read is handled

`System.ServedOnce` says that no request is settled twice, or wrongly; here is that each one is settled at all.
While nothing arrives the workers work the backlog off, in whatever order they are scheduled, whatever the outside
answers them and whatever `rand()` gives (`backlog_drains`). No worker can be held up: a pop is handled in one call
of `do_work`, which throws nothing that `work` does not survive, and a session that a lookup found is there to be
written on, open or closed.

The one way to fail is the null pointer of a worker whose session cache did not come up, which is why the caches
are asked to have it.
-/

namespace BServer

open Bytes

namespace Serving

variable {proto : Proto} {connectCount : Int} {taskQueueMax : Nat} {s s' : Serving}

/-- What the workers do by themselves. A pop takes a message. What the outside answers and what `rand()` gives may
    depend on all that happened. -/
def WorkersOnly (up : Serving → Upstream) (rand : Serving → Nat) (s : Serving) : Event → Prop
  | .net _     => False
  | .pop _ _ u => u = up s ∧ s.tasks.queue.deque ≠ []
  | .look _ r  => r = rand s
  | .write _   => True

/-- Nothing is queued, and nobody has anything in hand. -/
def Drained (s : Serving) : Prop := s.tasks.queue.deque = [] ∧ ∀ t ∈ s.workers, t.pending = []

/-- What is queued, and how far the workers are from having nothing in hand. -/
def backlog (s : Serving) : Nat × Nat := (s.tasks.queue.deque.length, Run.total WorkerThread.ahead s.workers)

/-- There are workers, each can handle whatever comes, and nobody stopped them. -/
structure Ready (proto : Proto) (taskQueueMax : Nat) (s : Serving) : Prop where
  inv     : Inv proto taskQueueMax s
  workers : s.workers ≠ []
  caches  : ∀ t ∈ s.workers, t.caches.sessCache ≠ none
  running : s.tasks.queue.stop = false

theorem stop_foldl_push (q : TaskQueue) (ms : List MessageFormat) : (ms.foldl TaskQueue.push q).stop = q.stop := by
  induction ms generalizing q with
  | nil => rfl
  | cons m ms ih => exact ih (q.push m)

/-- Where the queue has a message, `try_pop` takes it. -/
theorem tryPop_takes (taskQueueMax j : Nat) {ts : TaskSystem} {m : MessageFormat} {ms : List MessageFormat}
    (h : ts.queue.deque = m :: ms) : ∃ ts' p, TaskSystem.step taskQueueMax ts (.tryPop j) = some ts' ∧
      ts'.popped = ts.popped ++ [p] := by
  obtain ⟨⟨deque, stop⟩, popped⟩ := ts
  cases h
  exact ⟨_, _, rfl, rfl⟩

namespace Ready

variable (h : Ready proto taskQueueMax s)

include h in
/-- One worker is replaced by another with its caches. -/
theorem set {j : Nat} {t : WorkerThread} (t' : WorkerThread) (hj : s.workers[j]? = some t) (hc : t'.caches = t.caches) :
    s.workers.set j t' ≠ [] ∧ ∀ u ∈ s.workers.set j t', u.caches.sessCache ≠ none := by
  refine ⟨fun hnil => h.workers ((List.set_eq_nil_iff j t').mp hnil), fun u hu => ?_⟩
  rcases List.mem_or_eq_of_mem_set hu with hu | rfl
  · exact h.caches u hu
  · rw [hc]
    exact h.caches t (List.mem_of_getElem? hj)

include h in
theorem step {e : Event} (hs : Serving.step proto connectCount taskQueueMax s e = some s') :
    Ready proto taskQueueMax s' := by
  have hinv := h.inv.step hs
  rcases step_cases hs with ⟨e', w', _, hw, rfl⟩ | ⟨rfl, _⟩ | ⟨j, _, up, t, tasks, p, ds, _, ht, rfl⟩ |
    ⟨j, t, t', w', extra, hw, rfl⟩
  · exact ⟨hinv, h.workers, h.caches, (stop_foldl_push _ _).trans h.running⟩
  · exact h
  · obtain ⟨hworkers, hcaches⟩ := h.set { t with origin := s.tasks.popped.length, left := ds } ht.worker rfl
    exact ⟨hinv, hworkers, hcaches, ht.front.2.trans h.running⟩
  · obtain ⟨hworkers, hcaches⟩ := h.set t' hw.worker hw.caches
    exact ⟨hinv, hworkers, hcaches, h.running⟩

include h in
/-- **The backlog shrinks**: by a message, or with the queue as it is by an event of a worker. -/
theorem backlog_lt {up : Serving → Upstream} {rand : Serving → Nat} {e : Event} (he : WorkersOnly up rand s e)
    (hs : Serving.step proto connectCount taskQueueMax s e = some s') :
    s'.world.pushed = s.world.pushed ∧ Prod.Lex (· < ·) (· < ·) s'.backlog s.backlog := by
  rcases step_cases hs with ⟨e', w', rfl, _⟩ | ⟨rfl, ⟨j, call, u, rfl⟩, hnothing⟩ |
    ⟨j, _, _, t, tasks, p, ds, _, ht, rfl⟩ | ⟨j, t, t', w', extra, hw, rfl⟩
  · exact he.elim
  · rcases hnothing with hnil | hstop
    · exact absurd hnil he.2
    · rw [h.running] at hstop
      cases hstop
  · obtain ⟨⟨m, hm⟩, _⟩ := ht.front
    refine ⟨rfl, Prod.Lex.left _ _ ?_⟩
    rw [hm, List.length_cons]
    exact Nat.lt_succ_self _
  · refine ⟨hw.pushed, Prod.Lex.right _ ?_⟩
    have hset := Run.total_set WorkerThread.ahead hw.worker t'
    have hcloser := hw.closer
    show Run.total WorkerThread.ahead (s.workers.set j t') < _
    omega

include h in
/-- A worker with a session cache handles whatever it popped. -/
theorem handles {t : WorkerThread} (ht : t ∈ s.workers) (up : Upstream) (task : Task) :
    (t.caches.doWork proto up task).outcome
      = .ok (doWork proto (t.caches.backends proto up) task.id task.head task.data) :=
  WorkerCaches.doWork_outcome (avoids_doWork_iff.mpr (Or.inl (h.caches t ht)))

include h in
/-- **Nobody is held up.** A worker that has frames in hand can go on, and any that has none can take a message. -/
theorem exists_step (up : Serving → Upstream) (rand : Serving → Nat) (hnot : ¬ Drained s) :
    ∃ e u, WorkersOnly up rand s e ∧ Serving.step proto connectCount taskQueueMax s e = some u := by
  have hgo : ∀ e : Event, WorkersOnly up rand s e →
      Serving.step proto connectCount taskQueueMax s e ≠ none →
      ∃ e u, WorkersOnly up rand s e ∧ Serving.step proto connectCount taskQueueMax s e = some u := by
    intro e he hne
    obtain ⟨u, hu⟩ := Option.ne_none_iff_exists'.mp hne
    exact ⟨e, u, he, hu⟩
  by_cases hidle : ∀ t ∈ s.workers, t.pending = []
  · -- nobody has anything in hand, so there is a message, and the first worker takes it
    obtain ⟨m, ms, hdeque⟩ := List.exists_cons_of_ne_nil fun hnil => hnot ⟨hnil, hidle⟩
    obtain ⟨t, ts, hworkers⟩ := List.exists_cons_of_ne_nil h.workers
    have ht : t ∈ s.workers := hworkers ▸ List.mem_cons_self
    have hfree : t.left = [] ∧ t.found = none := by
      have hnil := hidle t ht
      rw [WorkerThread.pending, List.append_eq_nil_iff] at hnil
      refine ⟨hnil.2, ?_⟩
      cases hfound : t.found with
      | none => rfl
      | some x =>
          rw [hfound] at hnil
          cases hnil.1
    obtain ⟨tasks, p, htasks, hp⟩ := tryPop_takes taskQueueMax 0 hdeque
    have hj : s.workers[0]? = some t := by rw [hworkers]; rfl
    have hlast : tasks.popped[s.tasks.popped.length]? = some p := by rw [hp]; exact List.getElem?_concat_length
    have hne : s.tasks.queue.deque ≠ [] := by rw [hdeque]; exact List.cons_ne_nil m ms
    refine hgo (.pop 0 .tryPop (up s)) ⟨rfl, hne⟩ ?_
    simp [Serving.step, hj, hfree, PopCall.event, htasks, hlast, h.handles ht (up s) p.task]
  · obtain ⟨t, ht, hbusy⟩ : ∃ t ∈ s.workers, t.pending ≠ [] := by
      by_contra hnone
      exact hidle fun t ht => not_not.mp fun hne => hnone ⟨t, ht, hne⟩
    obtain ⟨j, hj⟩ := List.getElem?_of_mem ht
    obtain ⟨caches, origin, left, found⟩ := t
    cases found with
    | some f =>
        -- the session it found exists, so the write can happen
        obtain ⟨d, x⟩ := f
        obtain ⟨q, hx⟩ : ∃ q, s.world.sessions[x]? = some q := by
          have hreach := h.inv.found _ ht d x rfl
          cases d with
          | toServer serverId mf =>
              obtain ⟨q, hx, _⟩ := hreach
              exact ⟨q, hx⟩
          | fixToServer id mf =>
              obtain ⟨q, hx, _⟩ := hreach
              exact ⟨q, hx⟩
          | toClient id mf =>
              obtain ⟨q, hx, _⟩ := hreach
              exact ⟨q, hx⟩
        exact hgo (.write j) trivial (by simp [Serving.step, hj, hx])
    | none =>
        cases left with
        | nil => exact absurd rfl hbusy
        | cons d ds =>
            refine hgo (.look j (rand s)) rfl ?_
            simp only [Serving.step, hj]
            split
            · exact Option.some_ne_none _
            · exact Option.some_ne_none _

end Ready

theorem ready_run {caches : List WorkerCaches} {es : List Event} (hcaches : caches ≠ [])
    (hinit : ∀ c ∈ caches, c.sessCache ≠ none)
    (hrun : Run.run (step proto connectCount taskQueueMax) (start caches) es = some s) :
    Ready proto taskQueueMax s := by
  refine Run.run_invariant _ (I := Ready proto taskQueueMax) ?_ (fun _ _ _ h hs => h.step hs) hrun
  refine ⟨Inv.start caches, fun hnil => hcaches (List.map_eq_nil_iff.mp hnil), fun t ht => ?_, rfl⟩
  obtain ⟨c, hc, rfl⟩ := List.mem_map.mp ht
  exact hinit c hc

/-- Where all is drained every message was popped, and what its handling yields is settled. -/
theorem Ready.settled (h : Ready proto taskQueueMax s) (hd : Drained s) :
    List.Forall₂ (TaskSystem.Yields taskQueueMax) (s.world.pushed.map Prod.snd) s.tasks.popped ∧
      ∀ (n : Nat) (p : Pop), s.tasks.popped[n]? = some p → ∃ (t : WorkerThread) (up : Upstream),
        s.workers[p.worker]? = some t ∧ s.answers[n]? = some up ∧
          s.settledOf n = doWork proto (t.caches.backends proto up) p.task.id p.task.head p.task.data := by
  obtain ⟨hdeque, hidle⟩ := hd
  constructor
  · obtain ⟨taken, hpushed, hall⟩ := h.inv.queue
    rw [hdeque, List.append_nil] at hpushed
    rw [hpushed]
    exact hall
  · intro n p hp
    obtain ⟨t, up, ht, hup, hok⟩ := h.inv.handled n p hp
    have hmem := List.mem_of_getElem? ht
    refine ⟨t, up, ht, hup, ?_⟩
    have hnone : s.pendingOf n = [] := by
      rw [pendingOf_eq hp ht, hidle t hmem]
      split
      · rfl
      · rfl
    rw [h.handles hmem up p.task, hnone, List.append_nil] at hok
    exact (Except.ok.inj hok).symm

/-- The server later on: ready, with the same caches, nothing more read, no answer forgotten, and those that came
    since are what the outside says. -/
structure Continues (proto : Proto) (taskQueueMax : Nat) (caches : List WorkerCaches) (up : Serving → Upstream)
    (s t : Serving) : Prop where
  ready   : Ready proto taskQueueMax t
  caches  : t.workers.map WorkerThread.caches = caches
  pushed  : t.world.pushed = s.world.pushed
  answers : ∃ given, t.answers = s.answers ++ given ∧ ∀ u ∈ given, ∃ r, u = up r

theorem Continues.step {caches : List WorkerCaches} {up : Serving → Upstream} {rand : Serving → Nat} {t u : Serving}
    {e : Event} (h : Continues proto taskQueueMax caches up s t) (he : WorkersOnly up rand t e)
    (hu : Serving.step proto connectCount taskQueueMax t e = some u)
    (hpushed : u.world.pushed = t.world.pushed) : Continues proto taskQueueMax caches up s u where
  ready := h.ready.step hu
  caches := (caches_step hu).trans h.caches
  pushed := hpushed.trans h.pushed
  answers := by
    obtain ⟨given, ht, hgiven⟩ := h.answers
    rcases step_cases hu with ⟨e', w', _, hw, rfl⟩ | ⟨rfl, _⟩ | ⟨j, call, a, t', tasks, p, ds, rfl, _, rfl⟩ |
      ⟨j, t', t'', w', extra, hw, rfl⟩
    · exact ⟨given, ht, hgiven⟩
    · exact ⟨given, ht, hgiven⟩
    · refine ⟨given ++ [a], ?_, fun u hu => ?_⟩
      · rw [← List.append_assoc, ← ht]
      · rcases List.mem_append.mp hu with hu | hu
        · exact hgiven u hu
        · exact ⟨t, (List.mem_singleton.mp hu).trans he.1⟩
    · exact ⟨given, ht, hgiven⟩

/-- **The backlog drains.** From wherever a run left the server, while nothing arrives the workers come to an end
    on every schedule, whatever the outside answers and whatever `rand()` gives. Then every message that was read
    was popped, and for each all that handling it yields, with what the outside answered at that pop, was written
    or found no session. What had been answered before is unchanged, and what came since the outside said. -/
theorem backlog_drains (proto : Proto) (connectCount : Int) (taskQueueMax : Nat) (caches : List WorkerCaches)
    (es : List Event) (s : Serving) (up : Serving → Upstream) (rand : Serving → Nat) (hcaches : caches ≠ [])
    (hinit : ∀ c ∈ caches, c.sessCache ≠ none)
    (hrun : Run.run (step proto connectCount taskQueueMax) (start caches) es = some s) :
    Run.Inevitably (step proto connectCount taskQueueMax) (WorkersOnly up rand)
      (fun t => t.world.pushed = s.world.pushed ∧
        (∃ given, t.answers = s.answers ++ given ∧ ∀ u ∈ given, ∃ r, u = up r) ∧
        List.Forall₂ (TaskSystem.Yields taskQueueMax) (s.world.pushed.map Prod.snd) t.tasks.popped ∧
        ∀ (n : Nat) (p : Pop), t.tasks.popped[n]? = some p → ∃ (w : WorkerCaches) (u : Upstream),
          caches[p.worker]? = some w ∧ t.answers[n]? = some u ∧
            t.settledOf n = doWork proto (w.backends proto u) p.task.id p.task.head p.task.data) s := by
  have hdrains : Run.Inevitably (step proto connectCount taskQueueMax) (WorkersOnly up rand)
      (fun t => Drained t ∧ Continues proto taskQueueMax caches up s t) s := by
    refine Run.inevitably (step proto connectCount taskQueueMax) (I := Continues proto taskQueueMax caches up s)
      (Prod.lex Nat.lt_wfRel Nat.lt_wfRel).wf backlog ?_ ?_
      ⟨ready_run hcaches hinit hrun, caches_run hrun, rfl, [], (List.append_nil _).symm, fun _ hu => by cases hu⟩
    · intro t e u ht he hu
      obtain ⟨hsame, hlt⟩ := ht.ready.backlog_lt he hu
      exact ⟨ht.step he hu hsame, hlt⟩
    · intro t ht hnot
      exact ht.ready.exists_step up rand fun hd => hnot ⟨hd, ht⟩
  refine hdrains.mono _ ?_
  rintro t ⟨hd, ht⟩
  obtain ⟨hpopped, hall⟩ := ht.ready.settled hd
  rw [ht.pushed] at hpopped
  refine ⟨ht.pushed, ht.answers, hpopped, fun n p hp => ?_⟩
  obtain ⟨w, u, hw, hu, hsettled⟩ := hall n p hp
  refine ⟨w.caches, u, ?_, hu, hsettled⟩
  rw [← ht.caches, List.getElem?_map, hw]
  rfl

/-- Two requests are queued, and the only worker can answer both, with what the robot says. -/
theorem backlog_drains_two : ∃ s,
    Run.run (step Proto.wire 1 10) (start oneWorker) twoRequests = some s ∧ s.tasks.queue.deque.length = 2 ∧
    Run.Inevitably (step Proto.wire 1 10) (WorkersOnly (fun _ => robotUpstream) (fun _ => 0))
      (fun t => List.Forall₂ (TaskSystem.Yields 10) (s.world.pushed.map Prod.snd) t.tasks.popped ∧
        ∀ u ∈ t.answers, u = robotUpstream) s := by
  have hinit : ∀ c ∈ oneWorker, c.sessCache ≠ none := by
    intro c hc
    cases List.mem_singleton.mp hc
    exact initCacheMap_sessCache _ |>.mpr rfl
  obtain ⟨s, hs, hlength, hanswers⟩ : ∃ s, Run.run (step Proto.wire 1 10) (start oneWorker) twoRequests = some s ∧
      s.tasks.queue.deque.length = 2 ∧ s.answers = [] := ⟨_, rfl, rfl, rfl⟩
  refine ⟨s, hs, hlength, (backlog_drains Proto.wire 1 10 oneWorker twoRequests s (fun _ => robotUpstream)
    (fun _ => 0) (List.cons_ne_nil _ _) hinit hs).mono _ ?_⟩
  rintro t ⟨_, ⟨given, ht, hgiven⟩, hpopped, _⟩
  refine ⟨hpopped, fun u hu => ?_⟩
  rw [ht, hanswers, List.nil_append] at hu
  exact (hgiven u hu).choose_spec

end Serving

end BServer
