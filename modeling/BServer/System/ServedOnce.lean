import BServer.System.Serving
import BServer.Task.PublicService

/-!
# `System.ServedOnce` — every request is answered once, where it came from

What a queue with many workers behind it promises, over any interleaving of reads, pops, lookups, writes,
reconnects and closes.

* `requests_settled_once` — the `n`-th pop is the `n`-th message that was read, and what was dispatched for it so
  far, together with what its worker has still in hand, is exactly what handling it yields with what the outside
  answered at that pop, each frame once and in order.
* `replies_answer_requests` — every reply is written on an outbound session that carries the id of the session
  its request was read on, and no request is replied to twice.
* `one_worker_keeps_order` — with a single worker, replies leave in the order in which requests arrived.
-/

namespace BServer

open Bytes

namespace Serving

variable {proto : Proto} {connectCount : Int} {taskQueueMax : Nat} {s s' : Serving}

/-! ## The invariant -/

/-- The frames of the `n`-th pop that were written or found no session, in order. -/
def settledOf (s : Serving) (n : Nat) : List Dispatch :=
  (s.settled.filter (fun r => r.origin = n)).map Settled.dispatch

/-- The frames of the `n`-th pop that its worker has still in hand. -/
def pendingOf (s : Serving) (n : Nat) : List Dispatch :=
  match s.tasks.popped[n]? with
  | none => []
  | some p =>
      match s.workers[p.worker]? with
      | none => []
      | some t => if t.origin = n then t.pending else []

/-- **The invariant.** Pops are accounted for; a worker that has frames in hand is on a pop of its own; what was
    settled for a pop and what is pending of it is what its handling yields; frames go where they may. -/
structure Inv (proto : Proto) (taskQueueMax : Nat) (s : Serving) : Prop where
  world   : s.world.Inv
  live    : s.world.Live
  queue   : TaskSystem.Accounted taskQueueMax (s.world.pushed.map Prod.snd) s.tasks
  busy    : ∀ (j : Nat) (t : WorkerThread), s.workers[j]? = some t → t.pending ≠ [] →
    ∃ p : Pop, s.tasks.popped[t.origin]? = some p ∧ p.worker = j
  handled : ∀ (n : Nat) (p : Pop), s.tasks.popped[n]? = some p → ∃ (t : WorkerThread) (up : Upstream),
    s.workers[p.worker]? = some t ∧ s.answers[n]? = some up ∧
      (t.caches.doWork proto up p.task).outcome = .ok (s.settledOf n ++ s.pendingOf n)
  answers : s.answers.length = s.tasks.popped.length
  known   : ∀ r ∈ s.settled, r.origin < s.tasks.popped.length
  routed  : ∀ r ∈ s.settled, ∀ x, r.target = some x → Reaches s.world x r.dispatch
  found   : ∀ t ∈ s.workers, ∀ d x, t.found = some (d, x) → Reaches s.world x d

theorem pendingOf_eq {n : Nat} {p : Pop} {t : WorkerThread} (hp : s.tasks.popped[n]? = some p)
    (ht : s.workers[p.worker]? = some t) : s.pendingOf n = if t.origin = n then t.pending else [] := by
  rw [pendingOf, hp]
  simp only [ht]

theorem settledOf_append {rs : List Settled} (h : s'.settled = s.settled ++ rs) (n : Nat) :
    s'.settledOf n = s.settledOf n ++ (rs.filter (fun r => r.origin = n)).map Settled.dispatch := by
  rw [settledOf, h, List.filter_append, List.map_append]
  rfl

namespace Inv

variable (h : Inv proto taskQueueMax s)

include h in
theorem work {j : Nat} {t t' : WorkerThread} {w' : World} {extra : List Settled}
    (hw : Works s j t t' w' extra) :
    Inv proto taskQueueMax ⟨w', s.tasks, s.workers.set j t', s.settled ++ extra, s.answers⟩ := by
  obtain ⟨hj, hcaches, horigin, hpending, hbusy, _, hextra, hworld, hpersist, hpushed, hrouted, hfound⟩ := hw
  obtain ⟨hinv, hlive⟩ := hworld h.world h.live
  have hlt : j < s.workers.length := (List.getElem?_eq_some_iff.mp hj).1
  have hself : (s.workers.set j t')[j]? = some t' := List.getElem?_set_self hlt
  obtain ⟨p, hp, hworker⟩ := h.busy j t hj hbusy
  constructor
  case world => exact hinv
  case live => exact hlive
  case queue =>
    show TaskSystem.Accounted taskQueueMax (w'.pushed.map Prod.snd) s.tasks
    rw [hpushed]
    exact h.queue
  case busy =>
    intro i u hi hu
    by_cases hij : i = j
    · subst hij
      rw [hself] at hi
      cases hi
      exact ⟨p, horigin ▸ hp, hworker⟩
    · rw [List.getElem?_set_ne (fun he => hij he.symm)] at hi
      exact h.busy i u hi hu
  case handled =>
    intro n q hq
    obtain ⟨u, up, hu, hup, hok⟩ := h.handled n q hq
    have hsettled : (⟨w', s.tasks, s.workers.set j t', s.settled ++ extra, s.answers⟩ : Serving).settledOf n
        = s.settledOf n ++ (extra.filter (fun r => r.origin = n)).map Settled.dispatch := settledOf_append rfl n
    by_cases hqj : q.worker = j
    · -- the worker that goes on keeps its caches
      rw [hqj, hj] at hu
      cases hu
      have hmine : (s.workers.set j t')[q.worker]? = some t' := by
        rw [hqj]
        exact hself
      refine ⟨t', up, hmine, hup, ?_⟩
      rw [pendingOf_eq (s := s) hq (hqj.symm ▸ hj)] at hok
      rw [hcaches, hok, hsettled, pendingOf_eq hq hmine, horigin, List.append_assoc]
      by_cases hn : t.origin = n
      · have hall : extra.filter (fun r => r.origin = n) = extra :=
          List.filter_eq_self.mpr fun r hr => decide_eq_true ((hextra r hr).trans hn)
        rw [if_pos hn, if_pos hn, hall, hpending]
      · have hnone : extra.filter (fun r => r.origin = n) = [] :=
          List.filter_eq_nil_iff.mpr fun r hr hrn => hn ((hextra r hr).symm.trans (of_decide_eq_true hrn))
        rw [if_neg hn, if_neg hn, hnone]
        rfl
    · have hother : (s.workers.set j t')[q.worker]? = some u := by
        rw [List.getElem?_set_ne (fun he => hqj he.symm)]
        exact hu
      refine ⟨u, up, hother, hup, ?_⟩
      -- the pop it settled frames of is its own, and not this one
      have hnone : extra.filter (fun r => r.origin = n) = [] := by
        refine List.filter_eq_nil_iff.mpr fun r hr hrn => hqj ?_
        have hn : t.origin = n := (hextra r hr).symm.trans (of_decide_eq_true hrn)
        rw [hn, hq] at hp
        cases hp
        exact hworker
      rw [pendingOf_eq (s := s) hq hu] at hok
      rw [hok, hsettled, pendingOf_eq hq hother, hnone, List.map_nil, List.append_nil]
  case answers => exact h.answers
  case known =>
    intro r hr
    rcases List.mem_append.mp hr with hr | hr
    · exact h.known r hr
    · rw [hextra r hr]
      exact (List.getElem?_eq_some_iff.mp hp).1
  case routed =>
    intro r hr x hx
    rcases List.mem_append.mp hr with hr | hr
    · exact (h.routed r hr x hx).persists hpersist
    · exact (h.found t (List.mem_of_getElem? hj) _ x (hrouted r hr x hx)).persists hpersist
  case found =>
    intro u hu d x hux
    rcases List.mem_or_eq_of_mem_set hu with hu | rfl
    · exact (h.found u hu d x hux).persists hpersist
    · exact hfound h.world h.live d x hux

include h in
/-- The world moves, and what arrives is queued. -/
theorem net {e : World.Event} {w' : World} (hs : World.step connectCount s.world e = some w') :
    Inv proto taskQueueMax { s with
      world := w'
      tasks := { s.tasks with queue := (arrived s.world w').foldl TaskQueue.push s.tasks.queue } } where
  world := h.world.step hs
  live := h.live.step hs
  queue := by
    show TaskSystem.Accounted taskQueueMax (w'.pushed.map Prod.snd) _
    rw [pushed_step hs]
    exact accounted_arrived h.queue _
  busy := h.busy
  handled := h.handled
  answers := h.answers
  known := h.known
  routed := fun r hr x hx => (h.routed r hr x hx).persists (persists_step hs)
  found := fun t ht d x hx => (h.found t ht d x hx).persists (persists_step hs)

include h in
theorem take {j : Nat} {t : WorkerThread} {tasks : TaskSystem} {p : Pop} {up : Upstream} {ds : List Dispatch}
    (ht : Takes proto taskQueueMax s j t tasks p up ds) :
    Inv proto taskQueueMax { s with
      tasks := tasks
      workers := s.workers.set j { t with origin := s.tasks.popped.length, left := ds }
      answers := s.answers ++ [up] } := by
  obtain ⟨hj, hidle, hworker, hpopped, _, hqueue, hok⟩ := ht
  have hlt : j < s.workers.length := (List.getElem?_eq_some_iff.mp hj).1
  have hself : (s.workers.set j { t with origin := s.tasks.popped.length, left := ds })[j]?
      = some { t with origin := s.tasks.popped.length, left := ds } := List.getElem?_set_self hlt
  have hlast : tasks.popped[s.tasks.popped.length]? = some p := by
    rw [hpopped]
    exact List.getElem?_concat_length
  have hpending : t.pending = [] := by
    rw [WorkerThread.pending, hidle.1, hidle.2]
    rfl
  constructor
  case world => exact h.world
  case live => exact h.live
  case queue => exact hqueue h.queue
  case busy =>
    intro i u hi hu
    by_cases hij : i = j
    · subst hij
      rw [hself] at hi
      cases hi
      exact ⟨p, hlast, hworker⟩
    · rw [List.getElem?_set_ne (fun he => hij he.symm)] at hi
      obtain ⟨q, hq, hqi⟩ := h.busy i u hi hu
      refine ⟨q, ?_, hqi⟩
      show tasks.popped[u.origin]? = some q
      rw [hpopped, List.getElem?_append_left (List.getElem?_eq_some_iff.mp hq).1]
      exact hq
  case handled =>
    intro n q hq
    change tasks.popped[n]? = some q at hq
    have hq' := hq
    rw [hpopped] at hq'
    rcases Nat.lt_or_ge n s.tasks.popped.length with hn | hn
    · rw [List.getElem?_append_left hn] at hq'
      obtain ⟨u, up', hu, hup, hok'⟩ := h.handled n q hq'
      have hkept : (s.answers ++ [up])[n]? = some up' :=
        (List.getElem?_append_left (List.getElem?_eq_some_iff.mp hup).1).trans hup
      by_cases hqj : q.worker = j
      · rw [hqj, hj] at hu
        cases hu
        have hmine : (s.workers.set j { t with origin := s.tasks.popped.length, left := ds })[q.worker]?
            = some { t with origin := s.tasks.popped.length, left := ds } := by
          rw [hqj]
          exact hself
        refine ⟨_, up', hmine, hkept, ?_⟩
        -- the worker was done with this pop
        rw [pendingOf_eq (s := { s with tasks := tasks, workers := _, answers := _ }) hq hmine,
          if_neg (Nat.ne_of_gt hn)]
        rw [pendingOf_eq hq' (hqj ▸ hj), hpending, ite_self] at hok'
        exact hok'
      · have hother : (s.workers.set j { t with origin := s.tasks.popped.length, left := ds })[q.worker]?
            = some u := by
          rw [List.getElem?_set_ne (fun he => hqj he.symm)]
          exact hu
        refine ⟨u, up', hother, hkept, ?_⟩
        rw [pendingOf_eq (s := { s with tasks := tasks, workers := _, answers := _ }) hq hother]
        rw [pendingOf_eq hq' hu] at hok'
        exact hok'
    · -- the new pop: nothing was settled for it yet
      obtain rfl : n = s.tasks.popped.length := by
        have hlen := (List.getElem?_eq_some_iff.mp hq').1
        rw [List.length_append, List.length_singleton] at hlen
        omega
      rw [hlast] at hq
      cases hq
      have hmine : (s.workers.set j { t with origin := s.tasks.popped.length, left := ds })[p.worker]?
          = some { t with origin := s.tasks.popped.length, left := ds } := by
        rw [hworker]
        exact hself
      refine ⟨_, up, hmine, ?_, ?_⟩
      · rw [← h.answers]
        exact List.getElem?_concat_length
      have hnone : s.settledOf s.tasks.popped.length = [] := by
        rw [settledOf, List.filter_eq_nil_iff.mpr]
        · rfl
        · intro r hr hrn
          exact Nat.ne_of_lt (h.known r hr) (of_decide_eq_true hrn)
      rw [pendingOf_eq (s := { s with tasks := tasks, workers := _, answers := _ }) hlast hmine, if_pos rfl]
      show _ = Except.ok (s.settledOf s.tasks.popped.length ++ ((t.found.map Prod.fst).toList ++ ds))
      rw [hnone, hidle.2]
      exact hok
  case answers =>
    show (s.answers ++ [up]).length = tasks.popped.length
    rw [hpopped, List.length_append, List.length_append, h.answers]
    rfl
  case known =>
    intro r hr
    show r.origin < tasks.popped.length
    rw [hpopped, List.length_append]
    exact Nat.lt_of_lt_of_le (h.known r hr) (Nat.le_add_right _ _)
  case routed => exact h.routed
  case found =>
    intro u hu d x hux
    rcases List.mem_or_eq_of_mem_set hu with hu | rfl
    · exact h.found u hu d x hux
    · rw [show ({ t with origin := s.tasks.popped.length, left := ds } : WorkerThread).found = t.found from rfl,
        hidle.2] at hux
      cases hux

/-- At the start nothing was popped, and nobody has anything in hand. -/
theorem start (caches : List WorkerCaches) : Inv proto taskQueueMax (.start caches) where
  world := World.inv_start
  live := World.live_start
  queue := ⟨[], rfl, .nil⟩
  busy := by
    intro j t ht hbusy
    obtain ⟨c, _, rfl⟩ := List.mem_map.mp (List.mem_of_getElem? ht)
    exact absurd rfl hbusy
  handled := fun n p hp => by cases hp
  answers := rfl
  known := fun _ hr => by cases hr
  routed := fun _ hr => by cases hr
  found := by
    intro t ht d x hx
    obtain ⟨c, _, rfl⟩ := List.mem_map.mp ht
    cases hx

include h in
/-- **One event.** -/
theorem step {e : Event} (hs : Serving.step proto connectCount taskQueueMax s e = some s') :
    Inv proto taskQueueMax s' := by
  rcases step_cases hs with ⟨e', w', _, hw, rfl⟩ | ⟨rfl, _⟩ | ⟨j, _, up, t, tasks, p, ds, _, ht, rfl⟩ |
    ⟨j, t, t', w', extra, hw, rfl⟩
  · exact h.net hw
  · exact h
  · exact h.take ht
  · exact h.work hw

end Inv

theorem inv_run {caches : List WorkerCaches} {es : List Event}
    (hrun : Run.run (step proto connectCount taskQueueMax) (start caches) es = some s) :
    Inv proto taskQueueMax s :=
  Run.run_invariant _ (Inv.start caches) (fun _ _ _ h hs => h.step hs) hrun

/-- Nobody's caches change. -/
theorem caches_step {e : Event} (hs : step proto connectCount taskQueueMax s e = some s') :
    s'.workers.map WorkerThread.caches = s.workers.map WorkerThread.caches := by
  have hset : ∀ {j : Nat} {t t' : WorkerThread}, s.workers[j]? = some t → t'.caches = t.caches →
      (s.workers.set j t').map WorkerThread.caches = s.workers.map WorkerThread.caches := by
    intro j t t' hj hc
    obtain ⟨hlt, rfl⟩ := List.getElem?_eq_some_iff.mp hj
    rw [List.map_set, hc, ← List.getElem_map WorkerThread.caches (h := by rwa [List.length_map]),
      List.set_getElem_self]
  rcases step_cases hs with ⟨e', w', _, hw, rfl⟩ | ⟨rfl, _⟩ | ⟨j, _, up, t, tasks, p, ds, _, ht, rfl⟩ |
    ⟨j, t, t', w', extra, hw, rfl⟩
  · rfl
  · rfl
  · exact hset ht.worker rfl
  · exact hset hw.worker hw.caches

theorem caches_run {caches : List WorkerCaches} {es : List Event}
    (hrun : Run.run (step proto connectCount taskQueueMax) (start caches) es = some s) :
    s.workers.map WorkerThread.caches = caches := by
  refine Run.run_invariant _ (I := fun s => s.workers.map WorkerThread.caches = caches) ?_
    (fun _ _ _ h hs => (caches_step hs).trans h) hrun
  rw [start, List.map_map]
  exact List.map_id _

/-- What the outside answers at a pop. -/
def Event.answer : Event → Option Upstream
  | .pop _ _ up => some up
  | _ => none

/-- The answers that were recorded are those of the events, in order. -/
theorem answers_run {caches : List WorkerCaches} {es : List Event}
    (hrun : Run.run (step proto connectCount taskQueueMax) (start caches) es = some s) :
    s.answers.Sublist (es.filterMap Event.answer) := by
  refine Run.run_induction (step proto connectCount taskQueueMax)
    (P := fun es s => s.answers.Sublist (es.filterMap Event.answer)) (List.nil_sublist _) ?_ hrun
  intro es s e s' _ ih hs
  rw [List.filterMap_append]
  rcases step_cases hs with ⟨e', w', _, hw, rfl⟩ | ⟨rfl, _⟩ | ⟨j, call, up, t, tasks, p, ds, rfl, ht, rfl⟩ |
    ⟨j, t, t', w', extra, hw, rfl⟩
  · exact ih.trans (List.sublist_append_left _ _)
  · exact ih.trans (List.sublist_append_left _ _)
  · exact ih.append (List.Sublist.refl [up])
  · exact ih.trans (List.sublist_append_left _ _)

/-! ## Two requests -/

variable (connectCount taskQueueMax) in
/-- **Three events to a reply.** The only worker, with nothing in hand, takes the message in front; if the session
    it came from is still bound under its id, that is where the answer goes. -/
theorem answer_run {w : WorkerCaches} {o : Nat} {m : MessageFormat} {ms : List MessageFormat} {t : Task}
    {mf : MessageFormat} {x : SessPtr} {q : Session} (up : Upstream) (hworkers : s.workers = [⟨w, o, [], none⟩])
    (hqueue : s.tasks.queue.deque = m :: ms) (hroom : (m :: ms).length ≤ taskQueueMax)
    (htask : TaskQueue.taskOf m m.meetHead = t) (hok : (w.doWork proto up t).outcome = .ok [.fixToServer t.id mf])
    (hid : t.id ≠ []) (hbound : s.world.registries.peerMapClient.fixGet t.id = some x)
    (hx : s.world.sessions[x]? = some q) :
    ∃ s', Run.run (step proto connectCount taskQueueMax) s [.pop 0 .tryPop up, .look 0 0, .write 0] = some s' ∧
      s'.workers = [⟨w, s.tasks.popped.length, [], none⟩] ∧ s'.tasks.queue.deque = ms ∧
      s'.tasks.popped.length = s.tasks.popped.length + 1 ∧
      s'.settled = s.settled ++ [⟨s.tasks.popped.length, .fixToServer t.id mf, some x⟩] ∧
      s'.answers = s.answers ++ [up] ∧ s'.world.registries = s.world.registries ∧
      ∃ q', s'.world.sessions[x]? = some q' := by
  obtain ⟨world, ⟨⟨deque, stop⟩, popped⟩, workers, settled, answers⟩ := s
  cases hworkers
  cases hqueue
  have hhead : (if (m :: ms).length > taskQueueMax then TaskQueue.fullQueueEvent m.meetHead else m.meetHead)
      = m.meetHead := if_neg (Nat.not_lt.mpr hroom)
  let tasks : TaskSystem := ⟨⟨ms, stop⟩, popped ++ [⟨0, .tryPop, (m :: ms).length, t⟩]⟩
  have hpop : step proto connectCount taskQueueMax
      ⟨world, ⟨⟨m :: ms, stop⟩, popped⟩, [⟨w, o, [], none⟩], settled, answers⟩ (.pop 0 .tryPop up)
      = some ⟨world, tasks, [⟨w, popped.length, [.fixToServer t.id mf], none⟩], settled, answers ++ [up]⟩ := by
    simp only [step, List.getElem?_cons_zero, and_self, if_true, PopCall.event, TaskSystem.step,
      TaskQueue.tryPop_cons, hhead, htask, List.getElem?_concat_length, hok, List.set_cons_zero, tasks]
  have hlook : step proto connectCount taskQueueMax
      ⟨world, tasks, [⟨w, popped.length, [.fixToServer t.id mf], none⟩], settled, answers ++ [up]⟩ (.look 0 0)
      = some ⟨world, tasks, [⟨w, popped.length, [], some (.fixToServer t.id mf, x)⟩], settled, answers ++ [up]⟩ := by
    have hfull : t.id.isEmpty = false := by simpa using hid
    simp [step, Registries.dispatch, hfull, hbound, Registries.writeTo]
  let q' : Session := { q with write := (q.write.write mf).1, writing := q.writing ++ (q.write.write mf).2 }
  let s' : Serving := ⟨world.advance x q' [], tasks, [⟨w, popped.length, [], none⟩],
    settled ++ [⟨popped.length, .fixToServer t.id mf, some x⟩], answers ++ [up]⟩
  have hwrite : step proto connectCount taskQueueMax
      ⟨world, tasks, [⟨w, popped.length, [], some (.fixToServer t.id mf, x)⟩], settled, answers ++ [up]⟩ (.write 0)
      = some s' := by
    simp only [step, List.getElem?_cons_zero, hx, List.set_cons_zero]
    rfl
  refine ⟨s', ?_, rfl, rfl, List.length_append, rfl, rfl, rfl, q', ?_⟩
  · rw [Run.run, hpop, Option.bind_some, Run.run, hlook, Option.bind_some, Run.run, hwrite]
    rfl
  · exact List.getElem?_set_self (List.getElem?_eq_some_iff.mp hx).1

def answeredSlot : Bytes := slotId (ascii "server:10.0.0.1:9000") 0

/-- A worker whose session cache came up. -/
def oneWorker : List WorkerCaches := [initCacheMap ⟨ascii "/sessions", ascii "/sessions.bak", 0, [], false⟩]

/-- A public service request, as its 31 bytes. -/
def publicBytes : Bytes :=
  [10, 2, 115, 49, 16, 216, 4, 26, 2, 110, 49, 34, 18, 8, 25, 50, 14, 10, 1, 55, 18, 5, 114, 111, 98, 111, 116, 26, 2,
    104, 105]

theorem publicBytes_eq : publicBytes = Proto.wire.request.serialize publicServiceRequest := by decide +kernel

/-- A slot is connected, and two requests arrive on it: the public service request, and one with an empty body. -/
def twoRequests : List Event :=
  [.net (.connectSlot false (ascii "10.0.0.1:9000") 0 (ascii "10.0.0.1") 9000),
    .net (.received 0 (MessageFormat.headBytes ⟨0, 43, 200⟩ 31)), .net (.received 0 publicBytes),
    .net (.received 0 World.request)]

/-- The robot has something to say. -/
def robotUpstream : Upstream := { jsonUpstream [] with http := fun _ => ascii "hello" }

/-- The only worker answers the one, and then the other. -/
def twoAnswers : List Event :=
  [.pop 0 .tryPop robotUpstream, .look 0 0, .write 0] ++ [.pop 0 .tryPop silentUpstream, .look 0 0, .write 0]

/-- What it says to the first. -/
def robotReply : Dispatch :=
  .fixToServer answeredSlot (frame ⟨0, 43, 201⟩ (Proto.wire.response.serialize (envelope publicServiceRequest 0
    (Proto.wire.packet.serialize (publicAnswer robotUpstream (ascii "7") (ascii "robot")
      (ServicePackageResponser.toServiceRequest robotUpstream (ascii "7") (ascii "robot") (ascii "hi")))))))

def emptyReply : Dispatch := .fixToServer answeredSlot (frame ⟨0, 12, 201⟩ [])

theorem robotReply_outcome (w : WorkerCaches) :
    (w.doWork Proto.wire robotUpstream ⟨publicBytes, ⟨0, 43, 200⟩, answeredSlot⟩).outcome = .ok [robotReply] := by
  have hplain : (serviceRequestJson (ascii "7") (ascii "robot") (ascii "hi")).Plain :=
    serviceRequestJson_plain (by decide) (by decide) (by decide)
  have hhandled : Handled Proto.wire (innerTaskOf (ServicePackageResponser.parser Proto.wire robotUpstream w))
      publicBytes publicServiceRequest 0 (Proto.wire.packet.serialize (publicAnswer robotUpstream (ascii "7")
        (ascii "robot")
        (ServicePackageResponser.toServiceRequest robotUpstream (ascii "7") (ascii "robot") (ascii "hi")))) := by
    refine ⟨?_, rfl, _, rfl, ?_⟩
    · rw [publicBytes_eq]
      exact Proto.wire.request.parse_of_initialized rfl
    · rw [innerTaskOf, parser_public (Proto.wire.packet.parse_of_initialized rfl) ⟨rfl, rfl, rfl, rfl⟩ rfl
        (library_writesText.ne_nil _ _ rfl) (library_writesText.nonzero _ _ hplain rfl)]
      rfl
  have hreply := outcome_request (t := ⟨publicBytes, ⟨0, 43, 200⟩, answeredSlot⟩) rfl hhandled
  rw [if_pos rfl] at hreply
  exact hreply

theorem emptyReply_outcome (w : WorkerCaches) :
    (w.doWork Proto.wire silentUpstream ⟨[], ⟨0, 12, 200⟩, answeredSlot⟩).outcome = .ok [emptyReply] := by
  have hparse : Proto.wire.request.parse [] = none := Proto.wire.request.parse_nil rfl
  simp [WorkerCaches.doWork, pickResponser, Responser.handle, envelopeHandler, hparse, caught,
    ServiceResponseResult.fresh, Responser.response, emptyReply]

theorem twoAnswers_run : ∃ s,
    Run.run (step Proto.wire 1 10) (start oneWorker) (twoRequests ++ twoAnswers) = some s ∧
      s.settled = [⟨0, robotReply, some 0⟩, ⟨1, emptyReply, some 0⟩] ∧
      s.answers = [robotUpstream, silentUpstream] ∧ s.tasks.popped.length = 2 := by
  obtain ⟨s, m, m', hs, hworkers, hqueue, htask, htask', hpopped, hsettled, hanswers, hbound, q, hq⟩ : ∃ s m m',
      Run.run (step Proto.wire 1 10) (start oneWorker) twoRequests = some s ∧
      s.workers = [⟨initCacheMap ⟨ascii "/sessions", ascii "/sessions.bak", 0, [], false⟩, 0, [], none⟩] ∧
      s.tasks.queue.deque = [m, m'] ∧
      TaskQueue.taskOf m m.meetHead = ⟨publicBytes, ⟨0, 43, 200⟩, answeredSlot⟩ ∧
      TaskQueue.taskOf m' m'.meetHead = ⟨[], ⟨0, 12, 200⟩, answeredSlot⟩ ∧
      s.tasks.popped = [] ∧ s.settled = [] ∧ s.answers = [] ∧
      s.world.registries.peerMapClient.fixGet answeredSlot = some 0 ∧ ∃ q, s.world.sessions[0]? = some q :=
    ⟨_, _, _, rfl, rfl, rfl, by decide, by decide, rfl, rfl, rfl, by decide, _, rfl⟩
  have hne : answeredSlot ≠ [] := slotId_ne_nil _ _
  obtain ⟨s₁, hs₁, hworkers₁, hqueue₁, hpopped₁, hsettled₁, hanswers₁, hregistries₁, q₁, hq₁⟩ :=
    answer_run 1 10 robotUpstream hworkers hqueue (by simp) htask (robotReply_outcome _) hne hbound hq
  obtain ⟨s₂, hs₂, _, _, hpopped₂, hsettled₂, hanswers₂, _⟩ :=
    answer_run 1 10 silentUpstream hworkers₁ hqueue₁ (by simp) htask' (emptyReply_outcome _) hne
      (hregistries₁ ▸ hbound) hq₁
  rw [hpopped] at hpopped₁ hsettled₁
  rw [hpopped₁] at hpopped₂ hsettled₂
  refine ⟨s₂, ?_, ?_, ?_, hpopped₂⟩
  · rw [Run.run_append, hs, Option.bind_some, twoAnswers, Run.run_append, hs₁]
    exact hs₂
  · rw [hsettled₂, hsettled₁, hsettled]
    rfl
  · rw [hanswers₂, hanswers₁, hanswers]
    rfl

/-! ## Exactly once -/

/-- **Every request is settled once.** Whatever the interleaving, the pops are the messages that were read, in
    order and each once, and the queue holds the rest. For each pop, what was settled and what its worker has
    in hand are together what handling the message yields, each frame once and in order, with the caches of the
    worker that popped it and what the outside answered at that pop; and it is its worker that has them in hand. -/
theorem requests_settled_once (proto : Proto) (connectCount : Int) (taskQueueMax : Nat)
    (caches : List WorkerCaches) (es : List Event) (s : Serving)
    (hrun : Run.run (step proto connectCount taskQueueMax) (start caches) es = some s) :
    (∃ taken, s.world.pushed.map Prod.snd = taken ++ s.tasks.queue.deque ∧
        List.Forall₂ (TaskSystem.Yields taskQueueMax) taken s.tasks.popped) ∧
      s.answers.Sublist (es.filterMap Event.answer) ∧
      ∀ (n : Nat) (p : Pop), s.tasks.popped[n]? = some p →
        ∃ (t : WorkerThread) (up : Upstream) (ds : List Dispatch), s.workers[p.worker]? = some t ∧
          caches[p.worker]? = some t.caches ∧ s.answers[n]? = some up ∧
          (t.caches.doWork proto up p.task).outcome = .ok ds ∧ s.settledOf n ++ s.pendingOf n = ds ∧
          s.pendingOf n = if t.origin = n then t.pending else [] := by
  have h := inv_run hrun
  refine ⟨h.queue, answers_run hrun, ?_⟩
  intro n p hp
  obtain ⟨t, up, ht, hup, hok⟩ := h.handled n p hp
  have hcaches : caches[p.worker]? = some t.caches := by
    rw [← caches_run hrun, List.getElem?_map, ht]
    rfl
  exact ⟨t, up, _, ht, hcaches, hup, hok, rfl, pendingOf_eq hp ht⟩

/-- The first request was answered with what the robot said. -/
theorem requests_settled_once_two : ∃ s p t,
    Run.run (step Proto.wire 1 10) (start oneWorker) (twoRequests ++ twoAnswers) = some s ∧
      s.tasks.popped[0]? = some p ∧ s.answers[0]? = some robotUpstream ∧ oneWorker[p.worker]? = some t ∧
      (t.doWork Proto.wire robotUpstream p.task).outcome = .ok (s.settledOf 0 ++ s.pendingOf 0) := by
  obtain ⟨s, hs, _, hanswers, hpopped⟩ := twoAnswers_run
  have hlt : 0 < s.tasks.popped.length := by omega
  have hp := List.getElem?_eq_getElem hlt
  obtain ⟨_, _, hall⟩ := requests_settled_once Proto.wire 1 10 _ _ s hs
  obtain ⟨t, up, ds, _, hcaches, hup, hok, rfl, _⟩ := hall 0 _ hp
  rw [hanswers] at hup
  cases hup
  exact ⟨s, _, t.caches, hs, hp, by rw [hanswers]; rfl, hcaches, hok⟩

/-! ## Replies -/

/-- The handling a settled frame came out of. -/
theorem Inv.outgoing (h : Inv proto taskQueueMax s) {r : Settled} (hr : r ∈ s.settled) :
    ∃ (p : Pop) (ds : List Dispatch), s.tasks.popped[r.origin]? = some p ∧ Outgoing proto p.task ds ∧
      r.dispatch ∈ ds ∧ s.settledOf r.origin ++ s.pendingOf r.origin = ds := by
  have hlt := h.known r hr
  have hp : s.tasks.popped[r.origin]? = some s.tasks.popped[r.origin] := List.getElem?_eq_getElem hlt
  obtain ⟨t, up, _, _, hok⟩ := h.handled r.origin _ hp
  refine ⟨_, _, hp, WorkerCaches.doWork_outgoing hok, ?_, rfl⟩
  exact List.mem_append_left _ (List.mem_map_of_mem (List.mem_filter.mpr ⟨hr, decide_eq_true rfl⟩))

/-- A list has no duplicate keys when no key has two entries. -/
theorem nodup_map_of_filter {α : Type} {l : List α} {f : α → Nat}
    (h : ∀ n, (l.filter (fun a => f a = n)).length ≤ 1) : (l.map f).Nodup := by
  rw [List.nodup_iff_count_le_one]
  intro n
  refine Nat.le_trans (Nat.le_of_eq ?_) (h n)
  rw [List.count, List.countP_map, List.countP_eq_length_filter]
  congr 1

/-- A pop is replied to at most once. -/
theorem Inv.replies_nodup (h : Inv proto taskQueueMax s) :
    ((s.settled.filter Settled.isReply).map Settled.origin).Nodup := by
  refine nodup_map_of_filter fun n => ?_
  rw [List.filter_filter]
  by_contra hgt
  rw [Nat.not_le] at hgt
  -- there is a reply among the settled frames of this pop, and it stands alone
  obtain ⟨r, hr⟩ := List.exists_mem_of_length_pos (Nat.lt_trans Nat.zero_lt_one hgt)
  obtain ⟨hmem, hcond⟩ := List.mem_filter.mp hr
  rw [Bool.and_eq_true, decide_eq_true_eq] at hcond
  obtain ⟨rfl, hreply⟩ := hcond
  obtain ⟨id, mf, hd⟩ := Settled.isReply_iff.mp hreply
  obtain ⟨p, ds, _, hout, hin, hds⟩ := h.outgoing hmem
  rw [hd] at hin
  have hone := (hout.eq_reply hin).1
  have hle : (s.settledOf r.origin).length ≤ 1 := by
    rw [← hds] at hone
    have hlen := congrArg List.length hone
    rw [List.length_append, List.length_singleton] at hlen
    omega
  rw [settledOf, List.length_map] at hle
  have hfewer : (s.settled.filter (fun a => decide (a.origin = r.origin) && a.isReply)).length
      ≤ (s.settled.filter (fun a => decide (a.origin = r.origin))).length := by
    rw [← List.countP_eq_length_filter, ← List.countP_eq_length_filter]
    exact List.countP_mono_left fun a _ ha => (Bool.and_eq_true_iff.mp ha).1
  exact absurd hgt (Nat.not_lt.mpr (Nat.le_trans hfewer hle))

/-- The `n`-th pop is the `n`-th message that was read, and carries the id of the session it was read on. -/
theorem Inv.origin (h : Inv proto taskQueueMax s) {n : Nat} {p : Pop} (hp : s.tasks.popped[n]? = some p) :
    ∃ (y : SessPtr) (m : MessageFormat) (q : Session), s.world.pushed[n]? = some (y, m) ∧
      s.world.sessions[y]? = some q ∧ m.remoteId = q.id ∧ TaskSystem.Yields taskQueueMax m p := by
  obtain ⟨taken, hpushed, hall⟩ := h.queue
  obtain ⟨m, hm, hyields⟩ := Run.forall₂_getElem? hall hp
  have hmap : (s.world.pushed.map Prod.snd)[n]? = some m := by
    rw [hpushed, List.getElem?_append_left (List.getElem?_eq_some_iff.mp hm).1]
    exact hm
  rw [List.getElem?_map] at hmap
  obtain ⟨⟨y, m'⟩, hym, rfl⟩ := Option.map_eq_some_iff.mp hmap
  obtain ⟨q, hq, hid⟩ := h.world.pushed y m' (List.mem_of_getElem? hym)
  exact ⟨y, m', q, hym, hq, hid, hyields⟩

/-- Only outbound sessions carry the id of a server. -/
theorem kind_of_server_id {w : World} (h : w.Inv) {x : SessPtr} {q : Session} (hx : w.sessions[x]? = some q)
    {rest : Bytes} (hid : q.id = ascii "server:" ++ rest) : q.kind = .client := by
  rcases World.kind_cases q with hk | hk
  · obtain ⟨rest', hclient⟩ := h.inbound x q hx hk
    rw [hclient] at hid
    -- the first bytes are `c` and `s`
    have hbyte : some (99 : UInt8) = some 115 := congrArg List.head? hid
    exact absurd hbyte (by decide)
  · exact hk

/-- A pop whose command is answered was not shed: it has the head of its message. -/
theorem head_of_answered {m : MessageFormat} {p : Pop} (hy : TaskSystem.Yields taskQueueMax m p)
    (hcmd : Answered p.task.head.cmd) : p.task.head = m.meetHead := by
  have hown : p.task.head.cmd = m.cmd := by
    rw [hy.cmd]
    split
    · next hshed =>
        rw [hy.cmd, if_pos hshed] at hcmd
        rcases hcmd with hcmd | hcmd | hcmd <;> exact absurd hcmd (by decide)
    · rfl
  have hmagic := hy.magic
  have hlen := hy.len
  obtain ⟨_, _, _, ⟨_, ⟨magic, len, cmd⟩, _⟩⟩ := p
  simp only at hown hmagic hlen
  rw [hown, hmagic, hlen]
  rfl

/-- **Replies.** Every reply that was written went out on an outbound session; the request it answers was read
    on a session of the same id and kind, is the one of its pop, and came in under the command before. No
    request is replied to twice. -/
theorem replies_answer_requests (proto : Proto) (connectCount : Int) (taskQueueMax : Nat)
    (caches : List WorkerCaches) (es : List Event) (s : Serving)
    (hrun : Run.run (step proto connectCount taskQueueMax) (start caches) es = some s) :
    (∀ r ∈ s.settled, ∀ id mf x, r.dispatch = .fixToServer id mf → r.target = some x →
      ∃ (y : SessPtr) (m : MessageFormat) (q q' : Session) (body : Bytes),
        s.world.pushed[r.origin]? = some (y, m) ∧ s.world.sessions[y]? = some q ∧
        s.world.sessions[x]? = some q' ∧ q'.id = q.id ∧ q.kind = .client ∧ q'.kind = .client ∧
        Answered m.cmd ∧ mf = frame { m.meetHead with cmd := m.cmd + 1 } body) ∧
      ((s.settled.filter Settled.isReply).map Settled.origin).Nodup := by
  have h := inv_run hrun
  refine ⟨?_, h.replies_nodup⟩
  intro r hr id mf x hd hx
  obtain ⟨p, ds, hp, hout, hin, _⟩ := h.outgoing hr
  rw [hd] at hin
  obtain ⟨_, hid, hcmd, body, hmf⟩ := hout.eq_reply hin
  obtain ⟨y, m, q, hpushed, hq, hmid, hyields⟩ := h.origin hp
  have hreach := h.routed r hr x hx
  rw [hd] at hreach
  obtain ⟨q', hq', hkind, hid', rest, hname⟩ := hreach
  have hhead := head_of_answered hyields hcmd
  have hsame : id = q.id := hid.trans (hyields.id.trans hmid)
  rw [hhead] at hcmd hmf
  exact ⟨y, m, q, q', body, hpushed, hq, hq', hid'.trans hsame,
    kind_of_server_id h.world hq (hsame.symm.trans hname), hkind, hcmd, hmf⟩

/-- Both replies of the run are on the session of their requests. -/
theorem replies_answer_requests_two : ∃ s,
    Run.run (step Proto.wire 1 10) (start oneWorker) (twoRequests ++ twoAnswers) = some s ∧
      ∀ r ∈ s.settled, ∃ y m q, s.world.pushed[r.origin]? = some (y, m) ∧ s.world.sessions[y]? = some q ∧
        q.id = answeredSlot ∧ q.kind = .client ∧ Answered m.cmd := by
  obtain ⟨s, hs, hsettled, _⟩ := twoAnswers_run
  refine ⟨s, hs, fun r hr => ?_⟩
  have hreply : ∃ mf, r.dispatch = .fixToServer answeredSlot mf ∧ r.target = some 0 := by
    rw [hsettled] at hr
    rcases List.mem_cons.mp hr with rfl | hr
    · exact ⟨_, rfl, rfl⟩
    · cases List.mem_singleton.mp hr
      exact ⟨_, rfl, rfl⟩
  obtain ⟨mf, hdispatch, htarget⟩ := hreply
  obtain ⟨y, m, q, q', _, hpushed, hq, hq', hid, hkind, _, hcmd, _⟩ :=
    (replies_answer_requests Proto.wire 1 10 _ _ s hs).1 r hr answeredSlot mf 0 hdispatch htarget
  have hreach := (inv_run hs).routed r hr 0 htarget
  rw [hdispatch] at hreach
  obtain ⟨u, hu, _, huid, _⟩ := hreach
  rw [hq'] at hu
  cases hu
  exact ⟨y, m, q, hpushed, hq, hid.symm.trans huid, hkind, hcmd⟩

/-! ## One worker -/

/-- A single worker settles frames of the pop it is on, and of none before. -/
structure Single (s : Serving) : Prop where
  only   : ∃ t, s.workers = [t] ∧ ∀ r ∈ s.settled, r.origin ≤ t.origin
  sorted : (s.settled.map Settled.origin).Pairwise (· ≤ ·)

/-- The only worker of a list is at its first place. -/
theorem single_at {j : Nat} {t u : WorkerThread} (h : [t][j]? = some u) : j = 0 ∧ u = t := by
  cases j with
  | zero =>
      cases h
      exact ⟨rfl, rfl⟩
  | succ j => cases h

theorem Single.step {e : Event} (h : Single s) (hinv : Inv proto taskQueueMax s)
    (hs : Serving.step proto connectCount taskQueueMax s e = some s') : Single s' := by
  obtain ⟨⟨t, hone, hle⟩, hsorted⟩ := h
  rcases step_cases hs with ⟨e', w', _, hw, rfl⟩ | ⟨rfl, _⟩ | ⟨j, _, up, u, tasks, p, ds, _, ht, rfl⟩ |
    ⟨j, u, u', w', extra, hw, rfl⟩
  · exact ⟨⟨t, hone, hle⟩, hsorted⟩
  · exact ⟨⟨t, hone, hle⟩, hsorted⟩
  · -- the new pop comes after everything that was settled
    have hj := ht.worker
    rw [hone] at hj
    obtain ⟨rfl, rfl⟩ := single_at hj
    refine ⟨⟨_, by rw [hone]; rfl, ?_⟩, hsorted⟩
    exact fun r hr => Nat.le_of_lt (hinv.known r hr)
  · have hj := hw.worker
    rw [hone] at hj
    obtain ⟨rfl, rfl⟩ := single_at hj
    refine ⟨⟨u', by show s.workers.set 0 u' = [u']; rw [hone]; rfl, ?_⟩, ?_⟩
    · intro r hr
      rw [hw.origin]
      rcases List.mem_append.mp hr with hr | hr
      · exact hle r hr
      · exact Nat.le_of_eq (hw.mine r hr)
    · show ((s.settled ++ extra).map Settled.origin).Pairwise (· ≤ ·)
      rw [List.map_append, List.pairwise_append]
      refine ⟨hsorted, ?_, ?_⟩
      · rw [List.pairwise_map]
        refine List.pairwise_of_forall_mem_list fun a ha b hb => ?_
        rw [hw.mine a ha, hw.mine b hb]
      · intro a ha b hb
        obtain ⟨r, hr, rfl⟩ := List.mem_map.mp ha
        obtain ⟨r', hr', rfl⟩ := List.mem_map.mp hb
        rw [hw.mine r' hr']
        exact hle r hr

/-- **One worker keeps the order.** With a single worker, frames leave in the order in which the messages they
    answer were read, and replies one for each at most. -/
theorem one_worker_keeps_order (proto : Proto) (connectCount : Int) (taskQueueMax : Nat) (caches : WorkerCaches)
    (es : List Event) (s : Serving)
    (hrun : Run.run (step proto connectCount taskQueueMax) (start [caches]) es = some s) :
    (s.settled.map Settled.origin).Pairwise (· ≤ ·) ∧
      ((s.settled.filter Settled.isReply).map Settled.origin).Pairwise (· < ·) := by
  have h : Inv proto taskQueueMax s ∧ Single s := by
    refine Run.run_invariant (step proto connectCount taskQueueMax) (I := fun s => Inv proto taskQueueMax s ∧ Single s)
      ⟨Inv.start [caches], ⟨_, rfl, fun _ hr => (List.not_mem_nil hr).elim⟩, .nil⟩ ?_ hrun
    rintro u e v ⟨hinv, hsingle⟩ hs
    exact ⟨hinv.step hs, hsingle.step hinv hs⟩
  obtain ⟨hinv, hsingle⟩ := h
  refine ⟨hsingle.sorted, ?_⟩
  have hsub : ((s.settled.filter Settled.isReply).map Settled.origin).Pairwise (· ≤ ·) :=
    hsingle.sorted.sublist (List.filter_sublist.map _)
  exact (hsub.and hinv.replies_nodup).imp fun ⟨hle, hne⟩ => Nat.lt_of_le_of_ne hle hne

/-- The two replies are in the order of the two requests. -/
theorem one_worker_keeps_order_two : ∃ s,
    Run.run (step Proto.wire 1 10) (start oneWorker) (twoRequests ++ twoAnswers) = some s ∧
      (s.settled.filter Settled.isReply).length = 2 ∧
      ((s.settled.filter Settled.isReply).map Settled.origin).Pairwise (· < ·) := by
  obtain ⟨s, hs, hsettled, _⟩ := twoAnswers_run
  refine ⟨s, hs, ?_, (one_worker_keeps_order Proto.wire 1 10 _ _ s hs).2⟩
  rw [hsettled]
  rfl

end Serving

end BServer
