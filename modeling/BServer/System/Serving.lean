import BServer.System.LiveBindings
import BServer.System.ReplyRouting
import BServer.Task.Outgoing
import BServer.Task.TaskBase

/-!
# `System.Serving` — from a frame that is read to the frame that answers it

The io threads push what they read on the task queue; the workers pop it, handle it, look a session up for each
frame they dispatch, and write on that session. Between the lookup and the write the registry may change, and
the session may close; any number of workers are at any of these points. `Serving.step` has an event for each,
beside all events of `World`.

The state keeps two histories that nothing in the program reads: what became of each dispatched frame, under the
number of the pop it belongs to (`settled`), and what the outside answered while each pop was handled (`answers`).
`step_cases` says once what an event can do; what every run keeps is derived from it in `System.ServedOnce`.
-/

namespace BServer

open Bytes

/-- The frame of a dispatch. -/
def Dispatch.mf : Dispatch → MessageFormat
  | .toServer _ mf | .fixToServer _ mf | .toClient _ mf => mf

/-- The pop of a worker, as an event of the queue. -/
def PopCall.event (worker : Nat) : PopCall → TaskSystem.Event
  | .tryPop     => .tryPop worker
  | .waitAndPop => .waitAndPop worker

/-- A worker thread. It is idle when nothing is left to dispatch and no session found. -/
structure WorkerThread where
  caches : WorkerCaches
  /-- the number of the pop it is on, or was on last -/
  origin : Nat
  left   : List Dispatch
  /-- the frame it is about to write, and the session it found for it -/
  found  : Option (Dispatch × SessPtr)

/-- The frames a worker has in hand: the one it is about to write, and those left. -/
def WorkerThread.pending (t : WorkerThread) : List Dispatch := (t.found.map Prod.fst).toList ++ t.left

/-- How many events it takes until nothing is in hand: a lookup and a write for each frame. -/
def WorkerThread.ahead (t : WorkerThread) : Nat := 2 * t.left.length + (t.found.map Prod.fst).toList.length

/-- What became of a dispatched frame: the session it was written on, if one was found. -/
structure Settled where
  origin   : Nat
  dispatch : Dispatch
  target   : Option SessPtr

/-- A frame for the session a message was read on. -/
def Settled.isReply (r : Settled) : Bool :=
  match r.dispatch with
  | .fixToServer _ _ => true
  | _ => false

theorem Settled.isReply_iff {r : Settled} : r.isReply = true ↔ ∃ id mf, r.dispatch = .fixToServer id mf := by
  unfold isReply
  split
  · next id mf heq => exact ⟨fun _ => ⟨id, mf, heq⟩, fun _ => rfl⟩
  · next hne => exact ⟨fun h => (Bool.false_ne_true h).elim, fun ⟨id, mf, heq⟩ => (hne id mf heq).elim⟩

/-- The program, with the frames that were dispatched so far, and for each pop what the outside answered. -/
structure Serving where
  world   : World
  tasks   : TaskSystem
  workers : List WorkerThread
  settled : List Settled
  answers : List Upstream

namespace Serving

def start (caches : List WorkerCaches) : Serving :=
  ⟨.start, .fresh, caches.map (fun c => ⟨c, 0, [], none⟩), [], []⟩

inductive Event where
  /-- what the io threads, the heartbeat and the connecting threads do -/
  | net (e : World.Event)
  /-- an idle worker calls `try_pop` or `wait_and_pop`, and handles what it gets -/
  | pop (worker : Nat) (call : PopCall) (up : Upstream)
  /-- a worker looks a session up for its next frame -/
  | look (worker : Nat) (rand : Nat)
  /-- it writes on the session it found -/
  | write (worker : Nat)

/-- The messages an event of the world handed to the queue. -/
def arrived (w w' : World) : List MessageFormat := (w'.pushed.drop w.pushed.length).map Prod.snd

section Step

variable (proto : Proto) (connectCount : Int) (taskQueueMax : Nat)

def step (s : Serving) : Event → Option Serving
  | .net e =>
      match World.step connectCount s.world e with
      | none => none
      | some w =>
          some { s with
            world := w
            tasks := { s.tasks with queue := (arrived s.world w).foldl TaskQueue.push s.tasks.queue } }
  | .pop j call up =>
      match s.workers[j]? with
      | none => none
      | some t =>
          if t.left = [] ∧ t.found = none then
            match TaskSystem.step taskQueueMax s.tasks (call.event j) with
            | none => none
            | some tasks =>
                match tasks.popped[s.tasks.popped.length]? with
                | none => some { s with tasks := tasks }
                | some p =>
                    match (t.caches.doWork proto up p.task).outcome with
                    -- a null pointer was followed, and the process is gone
                    | .error _ => none
                    | .ok ds =>
                        some { s with
                          tasks := tasks
                          workers := s.workers.set j { t with origin := s.tasks.popped.length, left := ds }
                          answers := s.answers ++ [up] }
          else none
  | .look j rand =>
      match s.workers[j]? with
      | some ⟨caches, origin, d :: ds, none⟩ =>
          let out := s.world.registries.dispatch rand d
          let world := { s.world with registries := out.2 }
          match out.1 with
          | [] =>
              some { s with
                world := world
                workers := s.workers.set j ⟨caches, origin, ds, none⟩
                settled := s.settled ++ [⟨origin, d, none⟩] }
          | (x, _) :: _ =>
              some { s with world := world, workers := s.workers.set j ⟨caches, origin, ds, some (d, x)⟩ }
      | _ => none
  | .write j =>
      match s.workers[j]? with
      | some ⟨caches, origin, ds, some (d, x)⟩ =>
          match s.world.sessions[x]? with
          | none => none
          | some q =>
              let out := q.write.write d.mf
              some { s with
                world := s.world.advance x { q with write := out.1, writing := q.writing ++ out.2 } []
                workers := s.workers.set j ⟨caches, origin, ds, none⟩
                settled := s.settled ++ [⟨origin, d, some x⟩] }
      | _ => none

end Step

/-! ## What an event of the world leaves as it is -/

/-- An event of the world hands messages to the queue behind those already there. -/
theorem pushed_step {connectCount : Int} {w w' : World} {e : World.Event}
    (hs : World.step connectCount w e = some w') :
    w'.pushed.map Prod.snd = w.pushed.map Prod.snd ++ arrived w w' := by
  have happ : ∃ new, w'.pushed = w.pushed ++ new := by
    rcases World.step_cases hs with ⟨up, address, port, _, rfl⟩ | ⟨x, s, s', msgs, hx, _, rfl | rfl⟩
    · exact ⟨[], (List.append_nil _).symm⟩
    · exact ⟨_, rfl⟩
    · have hx' : (w.advance x s' msgs).sessions[x]? = some s' :=
        List.getElem?_set_self (List.getElem?_eq_some_iff.mp hx).1
      rw [World.close_eq hx']
      exact ⟨_, rfl⟩
  obtain ⟨new, hnew⟩ := happ
  rw [arrived, hnew, List.drop_left, List.map_append]

/-- A session is there for good, under its id and of its kind. -/
def Persists (w w' : World) : Prop :=
  ∀ (x : SessPtr) (q : Session), w.sessions[x]? = some q →
    ∃ q' : Session, w'.sessions[x]? = some q' ∧ q'.id = q.id ∧ q'.kind = q.kind

theorem persists_refl (w : World) : Persists w w := fun _ q hx => ⟨q, hx, rfl, rfl⟩

theorem Persists.trans {w₁ w₂ w₃ : World} (h₁ : Persists w₁ w₂) (h₂ : Persists w₂ w₃) : Persists w₁ w₃ := by
  intro x q hx
  obtain ⟨q', hx', hid, hkind⟩ := h₁ x q hx
  obtain ⟨q'', hx'', hid', hkind'⟩ := h₂ x q' hx'
  exact ⟨q'', hx'', hid'.trans hid, hkind'.trans hkind⟩

/-- One session goes on as another with its id and kind. -/
theorem persists_set {w w' : World} {x : SessPtr} {s s' : Session} (hx : w.sessions[x]? = some s)
    (hset : w'.sessions = w.sessions.set x s') (hid : s'.id = s.id) (hkind : s'.kind = s.kind) :
    Persists w w' := by
  intro y q hy
  rw [hset]
  obtain ⟨q', hy', rfl | ⟨rfl, rfl⟩⟩ := World.exists_getElem?_set (t := s') hx hy
  · exact ⟨_, hy', rfl, rfl⟩
  · exact ⟨_, hy', hid, hkind⟩

theorem persists_step {connectCount : Int} {w w' : World} {e : World.Event}
    (hs : World.step connectCount w e = some w') : Persists w w' := by
  rcases World.step_cases hs with ⟨up, address, port, _, rfl⟩ | ⟨x, s, s', msgs, hx, ha, rfl | rfl⟩
  · exact fun y q hy => ⟨q, World.sessions_bringUp_old hy, rfl, rfl⟩
  · exact persists_set hx rfl ha.id ha.kind
  · have hx' : (w.advance x s' msgs).sessions[x]? = some s' :=
      List.getElem?_set_self (List.getElem?_eq_some_iff.mp hx).1
    exact (persists_set hx rfl ha.id ha.kind).trans (persists_set hx' (World.sessions_close hx') rfl rfl)

/-! ## Where a dispatch goes -/

/-- Session `x` is one that the dispatch may be written on. -/
def Reaches (w : World) (x : SessPtr) : Dispatch → Prop
  | .toServer _ _ =>
      ∃ q : Session, w.sessions[x]? = some q ∧ q.kind = .client ∧ ∃ rest, q.id = ascii "server:" ++ rest
  | .fixToServer id _ =>
      ∃ q : Session, w.sessions[x]? = some q ∧ q.kind = .client ∧ q.id = id ∧ ∃ rest, id = ascii "server:" ++ rest
  | .toClient id _ => ∃ q : Session, w.sessions[x]? = some q ∧ q.kind = .server ∧ q.id = id

theorem Reaches.persists {w w' : World} {x : SessPtr} {d : Dispatch} (h : Reaches w x d) (hp : Persists w w') :
    Reaches w' x d := by
  cases d with
  | toServer serverId mf =>
      obtain ⟨q, hx, hkind, rest, hid⟩ := h
      obtain ⟨q', hx', hid', hkind'⟩ := hp x q hx
      exact ⟨q', hx', hkind'.trans hkind, rest, hid'.trans hid⟩
  | fixToServer id mf =>
      obtain ⟨q, hx, hkind, hid, hname⟩ := h
      obtain ⟨q', hx', hid', hkind'⟩ := hp x q hx
      exact ⟨q', hx', hkind'.trans hkind, hid'.trans hid, hname⟩
  | toClient id mf =>
      obtain ⟨q, hx, hkind, hid⟩ := h
      obtain ⟨q', hx', hid', hkind'⟩ := hp x q hx
      exact ⟨q', hx', hkind'.trans hkind, hid'.trans hid⟩

/-- Whoever is bound in the outbound registry is a session of a server. -/
theorem bound_server {w : World} (hinv : w.Inv) (hlive : w.Live) {k : Bytes} {x : SessPtr}
    (hk : w.registries.peerMapClient.fixGet k = some x) :
    ∃ q : Session, w.sessions[x]? = some q ∧ q.kind = .client ∧ q.id = k ∧ ∃ rest, k = ascii "server:" ++ rest := by
  obtain ⟨q, hx, hkind, hid, _⟩ := hlive.outbound k x hk
  exact ⟨q, hx, hkind, hid, hinv.bound_named hk⟩

/-- A lookup finds a session the dispatch may be written on. -/
theorem dispatch_reaches {w : World} (hinv : w.Inv) (hlive : w.Live) {rand : Nat} {d : Dispatch} {x : SessPtr}
    {mf : MessageFormat} {more : List SessionWrite} (h : (w.registries.dispatch rand d).1 = (x, mf) :: more) :
    Reaches w x d := by
  have hwrite : ∀ {sb : Option SessPtr} {m : MessageFormat}, Registries.writeTo sb m = (x, mf) :: more →
      sb = some x := by
    intro sb m hm
    cases sb with
    | none => cases hm
    | some y =>
        cases hm
        rfl
  cases d with
  | toServer serverId m =>
      simp only [Registries.dispatch] at h
      split at h
      · have hget := hwrite h
        by_cases hl : w.registries.peerMapClient.listed serverId = []
        · rw [PeerHandleMapForClient.get_of_nil hl] at hget
          cases hget
        · obtain ⟨k, _, hk⟩ := PeerHandleMapForClient.get_of_ne_nil hl rand
          obtain ⟨q, hx, hkind, hid, rest, hname⟩ := bound_server hinv hlive (hk.symm.trans hget)
          exact ⟨q, hx, hkind, rest, hid.trans hname⟩
      · cases h
  | fixToServer id m =>
      simp only [Registries.dispatch] at h
      split at h
      · exact bound_server hinv hlive (hwrite h)
      · cases h
  | toClient id m =>
      simp only [Registries.dispatch] at h
      split at h
      · obtain ⟨q, hx, hkind, hid, _⟩ := hlive.inbound id x (hwrite h)
        exact ⟨q, hx, hkind, hid⟩
      · cases h

/-- A lookup leaves every binding as it is. -/
theorem dispatch_bindings (r : Registries) (rand : Nat) (d : Dispatch) :
    (r.dispatch rand d).2.peerMap = r.peerMap ∧
      (r.dispatch rand d).2.peerMapClient.map = r.peerMapClient.map := by
  cases d with
  | toServer serverId m =>
      simp only [Registries.dispatch]
      split
      · exact ⟨rfl, PeerHandleMapForClient.map_get _ _ _⟩
      · exact ⟨rfl, rfl⟩
  | fixToServer id m =>
      simp only [Registries.dispatch]
      split
      · exact ⟨rfl, rfl⟩
      · exact ⟨rfl, rfl⟩
  | toClient id m =>
      simp only [Registries.dispatch]
      split
      · exact ⟨rfl, rfl⟩
      · exact ⟨rfl, rfl⟩

/-- Both invariants of the world are about the bindings, and not about the lists `get` draws from. -/
theorem inv_registries {w : World} {r : Registries} (h : w.Inv)
    (hmap : r.peerMapClient.map = w.registries.peerMapClient.map) : ({ w with registries := r } : World).Inv where
  log := by
    intro k
    show PeerHandleMap.get ⟨r.peerMapClient.map⟩ k = _
    rw [hmap]
    exact h.log k
  named := h.named
  inbound := h.inbound
  stamped := h.stamped
  pushed := h.pushed
  closed := h.closed

theorem live_registries {w : World} {r : Registries} (h : w.Live) (hpeer : r.peerMap = w.registries.peerMap)
    (hmap : r.peerMapClient.map = w.registries.peerMapClient.map) :
    ({ w with registries := r } : World).Live where
  inbound := by
    intro k x hk
    change r.peerMap.get k = some x at hk
    rw [hpeer] at hk
    exact h.inbound k x hk
  outbound := by
    intro k x hk
    change PeerHandleMap.get ⟨r.peerMapClient.map⟩ k = some x at hk
    rw [hmap] at hk
    exact h.outbound k x hk

/-! ## The queue -/

section Queue

variable {taskQueueMax : Nat} {ts ts' : TaskSystem}

/-- What arrives is pushed message by message. -/
theorem accounted_arrived {pushed : List MessageFormat} (h : TaskSystem.Accounted taskQueueMax pushed ts)
    (ms : List MessageFormat) :
    TaskSystem.Accounted taskQueueMax (pushed ++ ms) { ts with queue := ms.foldl TaskQueue.push ts.queue } := by
  induction ms generalizing pushed ts with
  | nil =>
      rw [List.append_nil]
      exact h
  | cons m ms ih =>
      have hpush : TaskSystem.step taskQueueMax ts (.push m) = some { ts with queue := ts.queue.push m } := rfl
      have hnext := ih (h.step hpush)
      rw [List.append_assoc] at hnext
      exact hnext

/-- **One call of a pop.** It takes the first message and appends the pop of the worker that called, or there is
    nothing to take. -/
theorem pop_spec {j : Nat} {call : PopCall} (hs : TaskSystem.step taskQueueMax ts (call.event j) = some ts') :
    (ts' = ts ∧ (ts.queue.deque = [] ∨ ts.queue.stop = true) ∨
      ∃ p : Pop, p.worker = j ∧ ts'.popped = ts.popped ++ [p] ∧
        (∃ m, ts.queue.deque = m :: ts'.queue.deque) ∧ ts'.queue.stop = ts.queue.stop) ∧
      ∀ {pushed : List MessageFormat}, TaskSystem.Accounted taskQueueMax pushed ts →
        TaskSystem.Accounted taskQueueMax pushed ts' := by
  obtain ⟨⟨deque, stop⟩, popped⟩ := ts
  constructor
  · cases call with
    | tryPop =>
        cases deque with
        | nil =>
            cases hs
            exact Or.inl ⟨rfl, Or.inl rfl⟩
        | cons m ms =>
            cases hs
            exact Or.inr ⟨_, rfl, rfl, ⟨m, rfl⟩, rfl⟩
    | waitAndPop =>
        simp only [PopCall.event, TaskSystem.step] at hs
        rcases TaskQueue.waitAndPop_cases ⟨deque, stop⟩ with ⟨_, hw⟩ | ⟨hstop, hw⟩ | ⟨m, ms, hd, hw⟩
        · rw [hw] at hs
          cases hs
        · rw [hw] at hs
          cases hs
          exact Or.inl ⟨rfl, Or.inr hstop⟩
        · rw [hw] at hs
          cases hs
          exact Or.inr ⟨_, rfl, rfl, ⟨m, hd⟩, rfl⟩
  · intro pushed h
    have hnext := h.step hs
    have hnone : (call.event j).pushes = [] := by cases call <;> rfl
    rw [hnone, List.append_nil] at hnext
    exact hnext

end Queue

/-! ## What one event does -/

variable {proto : Proto} {connectCount : Int} {taskQueueMax : Nat} {s s' : Serving}

/-- A worker goes on with its pop: some of what it had in hand is settled, and the world changes or not. -/
structure Works (s : Serving) (j : Nat) (t t' : WorkerThread) (w' : World) (extra : List Settled) : Prop where
  worker   : s.workers[j]? = some t
  caches   : t'.caches = t.caches
  origin   : t'.origin = t.origin
  pending  : t.pending = extra.map Settled.dispatch ++ t'.pending
  busy     : t.pending ≠ []
  closer   : t'.ahead < t.ahead
  mine     : ∀ r ∈ extra, r.origin = t.origin
  world    : s.world.Inv → s.world.Live → w'.Inv ∧ w'.Live
  persists : Persists s.world w'
  pushed   : w'.pushed = s.world.pushed
  routed   : ∀ r ∈ extra, ∀ x, r.target = some x → t.found = some (r.dispatch, x)
  found    : s.world.Inv → s.world.Live → ∀ d x, t'.found = some (d, x) → Reaches w' x d

/-- A worker takes the next pop, and handles it, while the outside answers what `up` says. -/
structure Takes (proto : Proto) (taskQueueMax : Nat) (s : Serving) (j : Nat) (t : WorkerThread)
    (tasks : TaskSystem) (p : Pop) (up : Upstream) (ds : List Dispatch) : Prop where
  worker : s.workers[j]? = some t
  idle   : t.left = [] ∧ t.found = none
  mine   : p.worker = j
  popped : tasks.popped = s.tasks.popped ++ [p]
  front  : (∃ m, s.tasks.queue.deque = m :: tasks.queue.deque) ∧ tasks.queue.stop = s.tasks.queue.stop
  queue  : ∀ {pushed : List MessageFormat}, TaskSystem.Accounted taskQueueMax pushed s.tasks →
    TaskSystem.Accounted taskQueueMax pushed tasks
  ok     : (t.caches.doWork proto up p.task).outcome = .ok ds

/-- A lookup changes no binding, so it keeps what is known of the world. -/
theorem world_looked {w : World} (rand : Nat) (d : Dispatch) (hinv : w.Inv) (hlive : w.Live) :
    ({ w with registries := (w.registries.dispatch rand d).2 } : World).Inv ∧
      ({ w with registries := (w.registries.dispatch rand d).2 } : World).Live := by
  obtain ⟨hpeer, hmap⟩ := dispatch_bindings w.registries rand d
  exact ⟨inv_registries hinv hmap, live_registries hlive hpeer hmap⟩

/-- **What an event can do.** The world moves, and what arrives is queued; a pop finds nothing to take; a worker
    takes the next pop; or it goes on with the one it is on. -/
theorem step_cases {e : Event} (hs : step proto connectCount taskQueueMax s e = some s') :
    (∃ e' w', e = .net e' ∧ World.step connectCount s.world e' = some w' ∧
      s' = { s with
        world := w'
        tasks := { s.tasks with queue := (arrived s.world w').foldl TaskQueue.push s.tasks.queue } }) ∨
    (s' = s ∧ (∃ j call up, e = .pop j call up) ∧ (s.tasks.queue.deque = [] ∨ s.tasks.queue.stop = true)) ∨
    (∃ j call up t tasks p ds, e = .pop j call up ∧ Takes proto taskQueueMax s j t tasks p up ds ∧
      s' = { s with
        tasks := tasks
        workers := s.workers.set j { t with origin := s.tasks.popped.length, left := ds }
        answers := s.answers ++ [up] }) ∨
    ∃ j t t' w' extra, Works s j t t' w' extra ∧
      s' = ⟨w', s.tasks, s.workers.set j t', s.settled ++ extra, s.answers⟩ := by
  cases e with
  | net e =>
      simp only [step] at hs
      split at hs
      · cases hs
      · next w' hw =>
          cases hs
          exact Or.inl ⟨e, w', rfl, hw, rfl⟩
  | pop j call up =>
      simp only [step] at hs
      split at hs
      · cases hs
      · next t hj =>
          split at hs
          · next hidle =>
              split at hs
              · cases hs
              · next tasks htasks =>
                  obtain ⟨⟨rfl, hnothing⟩ | ⟨p, hworker, hpopped, hfront⟩, hqueue⟩ := pop_spec htasks
                  · rw [List.getElem?_eq_none (Nat.le_refl _)] at hs
                    cases hs
                    exact Or.inr (Or.inl ⟨rfl, ⟨j, call, up, rfl⟩, hnothing⟩)
                  · rw [hpopped, List.getElem?_concat_length] at hs
                    simp only at hs
                    split at hs
                    · cases hs
                    · next ds hok =>
                        cases hs
                        exact Or.inr (Or.inr (Or.inl ⟨j, call, up, t, tasks, p, ds, rfl,
                          ⟨hj, hidle, hworker, hpopped, hfront, hqueue, hok⟩, rfl⟩))
          · cases hs
  | look j rand =>
      simp only [step] at hs
      split at hs
      · next caches origin d ds hj =>
          split at hs
          · cases hs
            refine Or.inr (Or.inr (Or.inr ⟨j, ⟨caches, origin, d :: ds, none⟩, _, _, [⟨origin, d, none⟩], ?_, rfl⟩))
            refine ⟨hj, rfl, rfl, rfl, List.cons_ne_nil _ _, by simp [WorkerThread.ahead], fun r hr => ?_,
              world_looked rand d, persists_refl _, rfl, fun r hr x hx => ?_, fun _ _ _ _ hx => by cases hx⟩
            · cases List.mem_singleton.mp hr
              rfl
            · cases List.mem_singleton.mp hr
              cases hx
          · next x mf more hout =>
              cases hs
              refine Or.inr (Or.inr (Or.inr ⟨j, ⟨caches, origin, d :: ds, none⟩, _, _, [], ?_,
                congrArg (fun rs => Serving.mk _ _ _ rs _) (List.append_nil _).symm⟩))
              refine ⟨hj, rfl, rfl, rfl, List.cons_ne_nil _ _, ?_, fun _ hr => (List.not_mem_nil hr).elim,
                world_looked rand d, persists_refl _, rfl, fun _ hr => (List.not_mem_nil hr).elim,
                fun hinv hlive d' x' hx => ?_⟩
              · simp only [WorkerThread.ahead, Option.map_some, Option.map_none, Option.toList_some, Option.toList_none,
                  List.length_cons, List.length_nil]
                omega
              · cases hx
                exact (dispatch_reaches hinv hlive hout).persists (persists_refl _)
      · cases hs
  | write j =>
      simp only [step] at hs
      split at hs
      · next caches origin ds d x hj =>
          split at hs
          · cases hs
          · next q hx =>
              cases hs
              have hadv := World.Advances.writes q (q.write.write d.mf).1 (q.writing ++ (q.write.write d.mf).2)
              refine Or.inr (Or.inr (Or.inr ⟨j, ⟨caches, origin, ds, some (d, x)⟩, _, _, [⟨origin, d, some x⟩], ?_,
                rfl⟩))
              refine ⟨hj, rfl, rfl, rfl, List.cons_ne_nil _ _, by simp [WorkerThread.ahead], fun r hr => ?_,
                fun hinv hlive => ⟨hinv.advance hx hadv, hlive.advance hx hadv⟩,
                persists_set hx rfl hadv.id hadv.kind, List.append_nil _, fun r hr y hy => ?_,
                fun _ _ _ _ hy => by cases hy⟩
              · cases List.mem_singleton.mp hr
                rfl
              · cases List.mem_singleton.mp hr
                cases hy
                rfl
      · cases hs

end Serving

end BServer
