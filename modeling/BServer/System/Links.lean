import Mathlib.Data.List.InsertIdx
import BServer.Net.Connection
import BServer.System.ServedOnce

/-!
# `System.Links` — what the server writes on a session, and what its peer reads

`Net.WriteQueue` follows one session and everyone who writes on it, byte by byte; `System.Serving` follows the whole
server, and knows a write only by the function that started it. Here the second is shown to do nothing on a session
that the first does not: every run of the server is, for each of its sessions, a run of `WriteLink` with the same
queue, the same flag and the same write outstanding (`mirrors_run`). So all that was proved of one session holds in
the server, and what workers, heartbeats and registrations write on it reaches the other end in the order in which
they wrote it (`what_is_written_arrives`).
-/

namespace BServer

open Bytes

/-- A session in operation is the write half `l`, with nothing of its outstanding writes taken yet. -/
structure Mirrors (l : WriteLink) (q : Session) : Prop where
  side        : l.side = q.write
  outstanding : l.outstanding = q.writing.map (fun w => (w, 0))

namespace WriteLink

/-- The socket takes all of a write, and it completes. -/
theorem run_done {l : WriteLink} {i : Nat} {a : AsyncWrite} (h : l.outstanding[i]? = some (a, 0)) :
    ∃ l', Run.run step l [.transfer i a.count, .done i] = some l' ∧ l'.side = (l.side.handleWrite false).1 ∧
      l'.outstanding = l.outstanding.eraseIdx i ++ (l.side.handleWrite false).2.1.map (fun w => (w, 0)) ∧
      l'.failed = l.failed := by
  have hlt : i < l.outstanding.length := (List.getElem?_eq_some_iff.mp h).1
  let taken : WriteLink := { l with
    outstanding := l.outstanding.set i (a, a.count)
    wire := l.wire ++ (a.source.body.drop 0).take a.count }
  have htransfer : step l (.transfer i a.count) = some taken := by
    simp only [step, h, Nat.zero_add, Nat.le_refl, if_true, taken]
  have hdone : step taken (.done i) = some (({ taken with outstanding := taken.outstanding.eraseIdx i } : WriteLink).start
      (l.side.handleWrite false).1 (l.side.handleWrite false).2.1) := by
    simp only [step, taken, List.getElem?_set_self hlt, if_true]
  refine ⟨({ taken with outstanding := taken.outstanding.eraseIdx i } : WriteLink).start
    (l.side.handleWrite false).1 (l.side.handleWrite false).2.1, ?_, rfl, ?_, rfl⟩
  · rw [Run.run, htransfer, Option.bind_some, Run.run, hdone]
    rfl
  · show (l.outstanding.set i (a, a.count)).eraseIdx i ++ _ = _
    rw [List.eraseIdx_set_eq]

/-- A write fails. -/
theorem run_error {l : WriteLink} {i : Nat} {a : AsyncWrite} (h : l.outstanding[i]? = some (a, 0)) :
    ∃ l', Run.run step l [.error i] = some l' ∧ l'.side = (l.side.handleWrite true).1 ∧
      l'.outstanding = l.outstanding.eraseIdx i ++ (l.side.handleWrite true).2.1.map (fun w => (w, 0)) ∧
      l'.failed = true := by
  refine ⟨{ ({ l with outstanding := l.outstanding.eraseIdx i } : WriteLink).start
    (l.side.handleWrite true).1 (l.side.handleWrite true).2.1 with failed := true }, ?_, rfl, rfl, rfl⟩
  simp only [Run.run, step, h, Option.bind_some]

/-- **What a healthy write half gets across.** Its queue holds the messages not done, the write in progress is that of
    the first of them, and whoever reads what is done and any part of the first has queued what was done. -/
theorem arrives {ls : List Event} {l : WriteLink} (hls : Run.run step fresh ls = some l) (hok : l.failed = false)
    (hstill : ∀ o ∈ l.outstanding, o.2 = 0) :
    ∃ done, l.accepted = done ++ l.side.writeMsgs ∧
      l.outstanding = (l.side.writeMsgs.take 1).map (fun m => (⟨m, m.length⟩, 0)) ∧
      ((∀ hb ∈ ls.flatMap Event.frames, hb.2.length ≤ 1048576) → ∀ k, ∃ whole, done.length ≤ whole ∧
        PeerQueues (bytesOf done ++ (bytesOf (l.side.writeMsgs.take 1)).take k)
          ((ls.flatMap Event.frames).take whole)) := by
  cases healthy_of_not_failed hls hok with
  | idle accepted started =>
      refine ⟨accepted, (List.append_nil _).symm, rfl, fun hle k => ?_⟩
      obtain ⟨whole, hcarries⟩ := carries hls hok
      have hstream : bytesOf accepted ++ (bytesOf ([] : List MessageFormat)).take k = bytesOf accepted := by
        rw [bytesOf, bytesOf, List.map_nil, List.flatten_nil, List.take_nil, List.append_nil]
      refine ⟨whole, hcarries.length_le, ?_⟩
      · show PeerQueues (bytesOf accepted ++ (bytesOf ([] : List MessageFormat)).take k) _
        rw [hstream]
        exact hcarries.peerQueues hle
  | busy written m queued sent started hsent hsizes =>
      obtain rfl : sent = 0 := hstill _ List.mem_cons_self
      refine ⟨written, rfl, rfl, fun hle k => ?_⟩
      -- the socket takes some of the front message
      have htransfer : Run.run step fresh (ls ++ [.transfer 0 (min k m.length)]) = some
          ⟨⟨m :: queued, true⟩, [(⟨m, m.length⟩, min k m.length)],
            bytesOf written ++ m.wire.take 0 ++ m.body.take (min k m.length), written ++ m :: queued, false,
            started⟩ := by
        rw [Run.run_append, hls, Option.bind_some, Run.run, step]
        simp only [List.getElem?_cons_zero, Nat.zero_add, Nat.min_le_right, if_true, List.set_cons_zero,
          List.drop_zero, Option.bind_some, Run.run]
      obtain ⟨whole, hcarries⟩ := carries htransfer rfl
      have hframes : (ls ++ [Event.transfer 0 (min k m.length)]).flatMap Event.frames = ls.flatMap Event.frames := by
        rw [List.flatMap_append]
        exact List.append_nil _
      rw [hframes] at hcarries
      have hstream : bytesOf written ++ m.wire.take 0 ++ m.body.take (min k m.length)
          = bytesOf written ++ (bytesOf [m]).take k := by
        rw [List.take_zero, List.append_nil, bytesOf_singleton, MessageFormat.wire, List.take_take]
      refine ⟨whole, ?_, ?_⟩
      · have hlength := hcarries.length_le
        rw [List.length_append] at hlength
        exact Nat.le_of_add_le_add_right hlength
      · show PeerQueues (bytesOf written ++ (bytesOf [m]).take k) _
        rw [← hstream]
        exact hcarries.peerQueues hle

end WriteLink

namespace World

/-- The frame an event writes on session `x`. -/
def Event.frameOn (x : SessPtr) : Event → List MessageFormat
  | .write y m h body => if y = x then [m.framed h body] else []
  | _ => []

/-- A write of session `x` fails. -/
def Event.failsOn (x : SessPtr) : Event → Bool
  | .written y _ true => y = x
  | _ => false

/-- Session `x` is there before and after, and its write half went on as a write half does: it took the frames `fs`,
    and a write of it failed or not. -/
def Follows (x : SessPtr) (fs : List MessageFormat) (fails : Bool) (w w' : World) : Prop :=
  ∀ (q : Session) (l : WriteLink), w.sessions[x]? = some q → Mirrors l q →
    ∃ (q' : Session) (l' : WriteLink) (ls : List WriteLink.Event), w'.sessions[x]? = some q' ∧ Mirrors l' q' ∧
      Run.run WriteLink.step l ls = some l' ∧ ls.flatMap WriteLink.Event.accepts = fs ∧
      l'.failed = (l.failed || fails)

/-- No session's write half changed. -/
def SameWrites (w w' : World) : Prop :=
  ∀ (x : SessPtr) (q : Session), w.sessions[x]? = some q →
    ∃ q' : Session, w'.sessions[x]? = some q' ∧ q'.write = q.write ∧ q'.writing = q.writing

theorem sameWrites_of_eq {w w' : World} (h : w'.sessions = w.sessions) : SameWrites w w' :=
  fun _ q hx => ⟨q, by rw [h, hx], rfl, rfl⟩

theorem SameWrites.trans {w₁ w₂ w₃ : World} (h₁ : SameWrites w₁ w₂) (h₂ : SameWrites w₂ w₃) : SameWrites w₁ w₃ := by
  intro x q hx
  obtain ⟨q', hx', hwrite, hwriting⟩ := h₁ x q hx
  obtain ⟨q'', hx'', hwrite', hwriting'⟩ := h₂ x q' hx'
  exact ⟨q'', hx'', hwrite'.trans hwrite, hwriting'.trans hwriting⟩

theorem sameWrites_set {w w' : World} {x : SessPtr} {s s' : Session} (hx : w.sessions[x]? = some s)
    (hset : w'.sessions = w.sessions.set x s') (hwrite : s'.write = s.write) (hwriting : s'.writing = s.writing) :
    SameWrites w w' := by
  intro y q hy
  rw [hset]
  obtain ⟨q', hy', rfl | ⟨rfl, rfl⟩⟩ := exists_getElem?_set (t := s') hx hy
  · exact ⟨_, hy', rfl, rfl⟩
  · exact ⟨_, hy', hwrite, hwriting⟩

theorem sameWrites_close (w : World) (x : SessPtr) : SameWrites w (w.close x) := by
  cases hx : w.sessions[x]? with
  | none =>
      rw [close, hx]
      exact sameWrites_of_eq rfl
  | some s => exact sameWrites_set hx (sessions_close hx) rfl rfl

/-- What a read handler asks for is nothing to the write half. -/
theorem sameWrites_carryOut (w : World) (x : SessPtr) (as : List ReadAct) : SameWrites w (w.carryOut x as) := by
  induction as generalizing w with
  | nil => exact sameWrites_of_eq rfl
  | cons a as ih =>
      cases a with
      | push m =>
          have hpushed : SameWrites w { w with pushed := w.pushed ++ [(x, m)] } := sameWrites_of_eq rfl
          exact hpushed.trans (ih _)
      | close => exact (sameWrites_close w x).trans (ih _)

theorem SameWrites.follows {w w' : World} (h : SameWrites w w') (x : SessPtr) : Follows x [] false w w' := by
  intro q l hx hm
  obtain ⟨q', hx', hwrite, hwriting⟩ := h x q hx
  refine ⟨q', l, [], hx', ⟨hm.side.trans hwrite.symm, ?_⟩, rfl, rfl, (Bool.or_false _).symm⟩
  rw [hm.outstanding, hwriting]

variable {connectCount : Int} {w w' : World}

/-- A call of `write` on session `y`. -/
theorem follows_write {y : SessPtr} {s : Session} (hy : w.sessions[y]? = some s) (m : MessageFormat) (h : Head)
    (body : Bytes) (x : SessPtr) :
    Follows x ((Event.write y m h body).frameOn x) false w
      (w.advance y { s with write := (s.write.write (m.framed h body)).1,
                            writing := s.writing ++ (s.write.write (m.framed h body)).2 } []) := by
  intro q l hx hm
  by_cases hyx : y = x
  · subst hyx
    rw [hx] at hy
    cases hy
    refine ⟨_, _, [.write m h body], List.getElem?_set_self (List.getElem?_eq_some_iff.mp hx).1, ?_, rfl, ?_,
      (Bool.or_false _).symm⟩
    · constructor
      · show (l.side.write _).1 = _
        rw [hm.side]
      · show l.outstanding ++ (l.side.write _).2.map _ = _
        rw [hm.outstanding, hm.side, List.map_append]
    · show [m.framed h body] = if y = y then _ else _
      rw [if_pos rfl]
  · have hsame : Event.frameOn x (.write y m h body) = [] := if_neg hyx
    rw [hsame]
    refine ⟨q, l, [], ?_, hm, rfl, rfl, (Bool.or_false _).symm⟩
    exact (List.getElem?_set_ne hyx).trans hx

/-- The completion of a write of session `y`. -/
theorem follows_written {y : SessPtr} {s : Session} (hy : w.sessions[y]? = some s) {i : Nat}
    (hi : i < s.writing.length) (error : Bool) (x : SessPtr) :
    Follows x [] (error && y = x) w
      (w.advance y { s with write := (s.write.handleWrite error).1,
                            writing := s.writing.eraseIdx i ++ (s.write.handleWrite error).2.1 } []) := by
  intro q l hx hm
  by_cases hyx : y = x
  · subst hyx
    rw [hx] at hy
    cases hy
    have hout : l.outstanding[i]? = some (s.writing[i], 0) := by
      rw [hm.outstanding, List.getElem?_map, List.getElem?_eq_getElem hi]
      rfl
    have hself : ∀ s', (w.advance y s' []).sessions[y]? = some s' :=
      fun _ => List.getElem?_set_self (List.getElem?_eq_some_iff.mp hx).1
    cases error with
    | true =>
        obtain ⟨l', hrun, hside, houtstanding, hfailed⟩ := WriteLink.run_error hout
        refine ⟨_, l', _, hself _, ⟨?_, ?_⟩, hrun, rfl, ?_⟩
        · rw [hside, hm.side]
        · rw [houtstanding, hm.outstanding, hm.side, List.map_append, List.eraseIdx_map]
        · simp [hfailed]
    | false =>
        -- the socket took all of it by then
        obtain ⟨l', hrun, hside, houtstanding, hfailed⟩ := WriteLink.run_done hout
        refine ⟨_, l', _, hself _, ⟨?_, ?_⟩, hrun, rfl, ?_⟩
        · rw [hside, hm.side]
        · rw [houtstanding, hm.outstanding, hm.side, List.map_append, List.eraseIdx_map]
        · simp [hfailed]
  · have hno : (error && decide (y = x)) = false := by simp [hyx]
    rw [hno]
    refine ⟨q, l, [], ?_, hm, rfl, rfl, (Bool.or_false _).symm⟩
    exact (List.getElem?_set_ne hyx).trans hx

/-- **Every event is one of the write half**, or none. -/
theorem follows_step {e : Event} (hs : step connectCount w e = some w') (x : SessPtr) :
    Follows x (e.frameOn x) (e.failsOn x) w w' := by
  have hup : ∀ (up : BringUp) (address : Bytes) (port : Nat),
      SameWrites w (w.bringUp connectCount up address port) :=
    fun _ _ _ y q hy => ⟨q, sessions_bringUp_old hy, rfl, rfl⟩
  cases e with
  | accept address port =>
      cases hs
      exact (hup _ _ _).follows x
  | connect error address port =>
      cases hs
      exact (hup _ _ _).follows x
  | connectSlot error host i address port =>
      cases hs
      exact (hup _ _ _).follows x
  | write y m h body =>
      simp only [step] at hs
      split at hs
      · cases hs
      · next s hy =>
          cases hs
          exact follows_write hy m h body x
  | written y i error =>
      simp only [step] at hs
      split at hs
      · cases hs
      · next s hy =>
          split at hs
          · next hi =>
              cases hs
              have hfollows := follows_written hy hi error x
              intro q l hx hm
              obtain ⟨q', l', ls, hx', hm', hrun, hfs, hfailed⟩ := hfollows q l hx hm
              have hfails : Event.failsOn x (.written y i error) = (error && decide (y = x)) := by
                cases error with
                | true => rfl
                | false => rfl
              rw [hfails]
              split
              · -- closing it afterwards leaves the write half as it is
                obtain ⟨q'', hx'', hwrite, hwriting⟩ := sameWrites_close _ y x q' hx'
                exact ⟨q'', l', ls, hx'', ⟨hm'.side.trans hwrite.symm, by rw [hm'.outstanding, hwriting]⟩, hrun, hfs,
                  hfailed⟩
              · exact ⟨q', l', ls, hx', hm', hrun, hfs, hfailed⟩
          · cases hs
  | received y d =>
      simp only [step] at hs
      split at hs
      · cases hs
      · next s hy =>
          split at hs
          · cases hs
          · split at hs
            · cases hs
              refine SameWrites.follows (SameWrites.trans ?_ (sameWrites_carryOut _ y _)) x
              exact sameWrites_set hy rfl rfl rfl
            · cases hs
  | readError y =>
      simp only [step] at hs
      split at hs
      · cases hs
      · next s hy =>
          split at hs
          · cases hs
          · cases hs
            refine SameWrites.follows (SameWrites.trans ?_ (sameWrites_carryOut _ y _)) x
            exact sameWrites_set hy rfl rfl rfl

/-- An event that is about a session needs it to be there. -/
theorem silent_of_absent {e : Event} (hs : step connectCount w e = some w') {x : SessPtr}
    (hold : w.sessions[x]? = none) : e.frameOn x = [] ∧ e.failsOn x = false := by
  cases e with
  | write y m h body =>
      have hyx : y ≠ x := by
        rintro rfl
        simp [step, hold] at hs
      exact ⟨if_neg hyx, rfl⟩
  | written y i error =>
      have hyx : y ≠ x := by
        rintro rfl
        simp [step, hold] at hs
      refine ⟨rfl, ?_⟩
      cases error with
      | true => exact decide_eq_false hyx
      | false => rfl
  | accept address port => exact ⟨rfl, rfl⟩
  | connect error address port => exact ⟨rfl, rfl⟩
  | connectSlot error host i address port => exact ⟨rfl, rfl⟩
  | received y d => exact ⟨rfl, rfl⟩
  | readError y => exact ⟨rfl, rfl⟩

/-- A session that an event brought up has written nothing. -/
theorem mirrors_new {e : Event} (hs : step connectCount w e = some w') {x : SessPtr} {q : Session}
    (hold : w.sessions[x]? = none) (hx : w'.sessions[x]? = some q) : Mirrors .fresh q := by
  rcases step_cases hs with ⟨up, address, port, _, rfl⟩ | ⟨y, s, s', msgs, hy, _, hw'⟩
  · rcases sessions_bringUp_cases hx with hx | ⟨_, rfl⟩
    · rw [hold] at hx
      cases hx
    · obtain ⟨hwrite, hwriting⟩ := BringUp.built_writes connectCount w.sessions.length address port .new w.registries up
      exact ⟨hwrite.symm, by rw [hwriting]; rfl⟩
  · -- no other event makes the list of sessions longer
    have hlength : w'.sessions.length = w.sessions.length := by
      rcases hw' with rfl | rfl
      · exact List.length_set
      · have hy' : (w.advance y s' msgs).sessions[y]? = some s' :=
          List.getElem?_set_self (List.getElem?_eq_some_iff.mp hy).1
        rw [sessions_close hy', List.length_set]
        exact List.length_set
    have hlt := (List.getElem?_eq_some_iff.mp hx).1
    rw [hlength] at hlt
    rw [List.getElem?_eq_getElem hlt] at hold
    cases hold

end World

namespace Serving

variable {proto : Proto} {connectCount : Int} {taskQueueMax : Nat} {s s' : Serving}

/-- The frame an event writes on session `x`. -/
def frameOn (x : SessPtr) (s : Serving) : Event → List MessageFormat
  | .net e => e.frameOn x
  | .write j =>
      match s.workers[j]? with
      | some ⟨_, _, _, some (d, y)⟩ => if y = x then [d.mf] else []
      | _ => []
  | _ => []

/-- A write of session `x` fails. -/
def Event.failsOn (x : SessPtr) : Event → Bool
  | .net e => e.failsOn x
  | _ => false

/-- The frames that a run of the server writes on session `x`, in order. -/
def framesOn (proto : Proto) (connectCount : Int) (taskQueueMax : Nat) (x : SessPtr) (caches : List WorkerCaches)
    (es : List Event) : List MessageFormat :=
  Run.collect (step proto connectCount taskQueueMax) (frameOn x) (start caches) es

/-- Every dispatched frame was built from a head and a body. -/
theorem Outgoing.framed {t : Task} {ds : List Dispatch} (h : Outgoing proto t ds) {d : Dispatch} (hd : d ∈ ds) :
    ∃ hd body, d.mf = frame hd body := by
  cases h with
  | nothing => cases hd
  | reply body _ =>
      cases List.mem_singleton.mp hd
      exact ⟨_, body, rfl⟩
  | pushes sn payload table _ =>
      obtain ⟨entry, _, rfl⟩ := List.mem_map.mp hd
      exact ⟨_, _, rfl⟩

theorem Inv.framed (h : Inv proto taskQueueMax s) {j : Nat} {t : WorkerThread} (hj : s.workers[j]? = some t)
    {d : Dispatch} {x : SessPtr} (hfound : t.found = some (d, x)) : ∃ hd body, d.mf = frame hd body := by
  have hd : d ∈ t.pending := by
    rw [WorkerThread.pending, hfound]
    exact List.mem_cons_self
  obtain ⟨p, hp, rfl⟩ := h.busy j t hj (List.ne_nil_of_mem hd)
  obtain ⟨t', up, ht', _, hok⟩ := h.handled t.origin p hp
  rw [hj] at ht'
  cases ht'
  refine Outgoing.framed (WorkerCaches.doWork_outgoing hok) (List.mem_append_right _ ?_)
  rw [pendingOf_eq hp hj, if_pos rfl]
  exact hd

/-- A pop is between the worker and the queue. -/
theorem pop_quiet {j : Nat} {call : PopCall} {up : Upstream}
    (hs : step proto connectCount taskQueueMax s (.pop j call up) = some s') :
    s'.world = s.world ∧ s'.settled = s.settled := by
  simp only [step] at hs
  split at hs
  · cases hs
  · split at hs
    · split at hs
      · cases hs
      · split at hs
        · cases hs
          exact ⟨rfl, rfl⟩
        · split at hs
          · cases hs
          · cases hs
            exact ⟨rfl, rfl⟩
    · cases hs

/-- What an event of the server is to its sessions: an event of the world, or nothing at all. -/
theorem world_step (h : Inv proto taskQueueMax s) {e : Event}
    (hs : step proto connectCount taskQueueMax s e = some s') :
    (∃ e', World.step connectCount s.world e' = some s'.world ∧
      ∀ x, frameOn x s e = e'.frameOn x ∧ e.failsOn x = e'.failsOn x) ∨
    (s'.world.sessions = s.world.sessions ∧ ∀ x, frameOn x s e = [] ∧ e.failsOn x = false) := by
  cases e with
  | net e =>
      simp only [step] at hs
      split at hs
      · cases hs
      · next w hw =>
          cases hs
          exact Or.inl ⟨e, hw, fun _ => ⟨rfl, rfl⟩⟩
  | pop j call up =>
      exact Or.inr ⟨congrArg World.sessions (pop_quiet hs).1, fun _ => ⟨rfl, rfl⟩⟩
  | look j rand =>
      simp only [step] at hs
      split at hs
      · split at hs
        · cases hs
          exact Or.inr ⟨rfl, fun _ => ⟨rfl, rfl⟩⟩
        · cases hs
          exact Or.inr ⟨rfl, fun _ => ⟨rfl, rfl⟩⟩
      · cases hs
  | write j =>
      simp only [step] at hs
      split at hs
      · next caches origin ds d y hj =>
          split at hs
          · cases hs
          · next q hy =>
              cases hs
              obtain ⟨hd, body, hmf⟩ := h.framed hj rfl
              refine Or.inl ⟨.write y .new hd body, ?_, fun x => ⟨?_, rfl⟩⟩
              · simp only [World.step, hy, hmf, frame]
              · simp only [frameOn, hj, World.Event.frameOn, hmf, frame]
      · cases hs

/-! ## Whole runs -/

/-- What is known of session `x` after a run: it is a write half that took the frames written on it; one that is not
    there took none. -/
structure Mirrored (proto : Proto) (connectCount : Int) (taskQueueMax : Nat) (caches : List WorkerCaches)
    (es : List Event) (s : Serving) (x : SessPtr) : Prop where
  present : ∀ q, s.world.sessions[x]? = some q → ∃ (ls : List WriteLink.Event) (l : WriteLink),
    Run.run WriteLink.step .fresh ls = some l ∧ Mirrors l q ∧
      ls.flatMap WriteLink.Event.accepts = framesOn proto connectCount taskQueueMax x caches es ∧
      l.failed = es.any (Event.failsOn x)
  absent : s.world.sessions[x]? = none →
    framesOn proto connectCount taskQueueMax x caches es = [] ∧ es.any (Event.failsOn x) = false

theorem mirrored_snoc {caches : List WorkerCaches} {es : List Event} {e : Event} {x : SessPtr}
    (hrun : Run.run (step proto connectCount taskQueueMax) (start caches) es = some s)
    (hs : step proto connectCount taskQueueMax s e = some s')
    (h : Mirrored proto connectCount taskQueueMax caches es s x) :
    Mirrored proto connectCount taskQueueMax caches (es ++ [e]) s' x := by
  have hinv := inv_run hrun
  have hframes : framesOn proto connectCount taskQueueMax x caches (es ++ [e])
      = framesOn proto connectCount taskQueueMax x caches es ++ frameOn x s e := Run.collect_snoc _ _ hrun e
  have hfails : (es ++ [e]).any (Event.failsOn x) = (es.any (Event.failsOn x) || e.failsOn x) := by
    rw [List.any_append, List.any_cons, List.any_nil, Bool.or_false]
  -- what the event does to the session, one way or the other
  obtain ⟨hfollows, hnew, hstill⟩ : World.Follows x (frameOn x s e) (e.failsOn x) s.world s'.world ∧
      (s.world.sessions[x]? = none → frameOn x s e = [] ∧ e.failsOn x = false ∧
        ∀ q, s'.world.sessions[x]? = some q → Mirrors .fresh q) ∧
      (s'.world.sessions[x]? = none → s.world.sessions[x]? = none) := by
    rcases world_step hinv hs with ⟨e', hworld, hsame⟩ | ⟨hsessions, hnothing⟩
    · obtain ⟨hframe, hfail⟩ := hsame x
      rw [hframe, hfail]
      refine ⟨World.follows_step hworld x, fun hold => ?_, fun hnone => ?_⟩
      · obtain ⟨hno, hnofail⟩ := World.silent_of_absent hworld hold
        exact ⟨hno, hnofail, fun q hx => World.mirrors_new hworld hold hx⟩
      · by_contra hsome
        obtain ⟨q, hq⟩ := Option.ne_none_iff_exists'.mp hsome
        obtain ⟨q', hq', _⟩ := persists_step hworld x q hq
        rw [hnone] at hq'
        cases hq'
    · obtain ⟨hframe, hfail⟩ := hnothing x
      rw [hframe, hfail, hsessions]
      refine ⟨(World.sameWrites_of_eq hsessions).follows x, fun hold => ⟨rfl, rfl, fun q hx => ?_⟩, id⟩
      rw [hold] at hx
      cases hx
  constructor
  · intro q hx
    cases hold : s.world.sessions[x]? with
    | some q₀ =>
        obtain ⟨ls, l, hls, hm, hacc, hfailed⟩ := h.present q₀ hold
        obtain ⟨q', l', ls', hx', hm', hls', hacc', hfailed'⟩ := hfollows q₀ l hold hm
        rw [hx] at hx'
        cases hx'
        refine ⟨ls ++ ls', l', ?_, hm', ?_, ?_⟩
        · rw [Run.run_append, hls]
          exact hls'
        · rw [List.flatMap_append, hacc, hacc', hframes]
        · rw [hfailed', hfailed, hfails]
    | none =>
        obtain ⟨hno, hnofail⟩ := h.absent hold
        obtain ⟨hnoframe, hnofail', hfresh⟩ := hnew hold
        refine ⟨[], .fresh, rfl, hfresh q hx, ?_, ?_⟩
        · rw [hframes, hno, hnoframe]
          rfl
        · rw [hfails, hnofail, hnofail']
          rfl
  · intro hnone
    obtain ⟨hno, hnofail⟩ := h.absent (hstill hnone)
    obtain ⟨hnoframe, hnofail', _⟩ := hnew (hstill hnone)
    rw [hframes, hfails, hno, hnofail, hnoframe, hnofail']
    exact ⟨rfl, rfl⟩

/-- **Every session of the server is a write half in operation.** -/
theorem mirrors_run {caches : List WorkerCaches} {es : List Event}
    (hrun : Run.run (step proto connectCount taskQueueMax) (start caches) es = some s) (x : SessPtr) :
    Mirrored proto connectCount taskQueueMax caches es s x := by
  refine Run.run_induction (step proto connectCount taskQueueMax)
    (P := fun es s => Mirrored proto connectCount taskQueueMax caches es s x) ?_ ?_ hrun
  · exact ⟨fun q hx => (List.not_mem_nil (List.mem_of_getElem? hx)).elim, fun _ => ⟨rfl, rfl⟩⟩
  · intro es t e u hrun ht hu
    exact mirrored_snoc hrun hu ht

/-- The frames that were settled on session `x`. -/
def settledOn (s : Serving) (x : SessPtr) : List MessageFormat :=
  (s.settled.filter (fun r => r.target = some x)).map (fun r => r.dispatch.mf)

/-- What workers settled on a session they wrote on it, in that order. -/
theorem settledOn_sublist {caches : List WorkerCaches} {es : List Event}
    (hrun : Run.run (step proto connectCount taskQueueMax) (start caches) es = some s) (x : SessPtr) :
    (s.settledOn x).Sublist (framesOn proto connectCount taskQueueMax x caches es) := by
  refine Run.run_induction (step proto connectCount taskQueueMax)
    (P := fun es s => (s.settledOn x).Sublist (framesOn proto connectCount taskQueueMax x caches es)) ?_ ?_ hrun
  · exact List.nil_sublist _
  intro es t e u hrun ih hu
  have hframes : framesOn proto connectCount taskQueueMax x caches (es ++ [e])
      = framesOn proto connectCount taskQueueMax x caches es ++ frameOn x t e := Run.collect_snoc _ _ hrun e
  have hsettles : ∃ new, u.settledOn x = t.settledOn x ++ new ∧ new.Sublist (frameOn x t e) := by
    have hkeep : u.settled = t.settled → ∃ new, u.settledOn x = t.settledOn x ++ new ∧ new.Sublist (frameOn x t e) :=
      fun hsame => ⟨[], by rw [settledOn, hsame, List.append_nil]; rfl, List.nil_sublist _⟩
    cases e with
    | net e =>
        simp only [step] at hu
        split at hu
        · cases hu
        · cases hu
          exact hkeep rfl
    | pop j call up => exact hkeep (pop_quiet hu).2
    | look j rand =>
        simp only [step] at hu
        split at hu
        · split at hu
          · -- no session, so it is settled on none
            cases hu
            refine ⟨[], ?_, List.nil_sublist _⟩
            simp [settledOn]
          · cases hu
            exact hkeep rfl
        · cases hu
    | write j =>
        simp only [step] at hu
        split at hu
        · next caches origin ds d y hj =>
            split at hu
            · cases hu
            · cases hu
              refine ⟨if y = x then [d.mf] else [], ?_, ?_⟩
              · by_cases hyx : y = x
                · simp [settledOn, hyx]
                · simp [settledOn, hyx]
              · simp only [frameOn, hj, List.Sublist.refl]
        · cases hu
  obtain ⟨new, hnew, hsub⟩ := hsettles
  rw [hframes, hnew]
  exact ih.append hsub

/-! ## Both ends -/

/-- **What is written arrives.** After any run of the server, on each of its sessions: the frames of the workers
    are among those written, in the order in which they were settled. If no write of the session failed, all that
    was written is in its queue or done, the write in progress is that of the front message, and, where no body is
    over the limit, whoever reads what is done and any part of the front message has queued what was done, keepalives
    left out, in order and intact. If a write failed, the session never starts another. -/
theorem what_is_written_arrives (proto : Proto) (connectCount : Int) (taskQueueMax : Nat) (caches : List WorkerCaches)
    (es : List Event) (s : Serving) (x : SessPtr) (q : Session)
    (hrun : Run.run (step proto connectCount taskQueueMax) (start caches) es = some s)
    (hx : s.world.sessions[x]? = some q) :
    (s.settledOn x).Sublist (framesOn proto connectCount taskQueueMax x caches es) ∧
    (es.any (Event.failsOn x) = true → q.writing = [] ∧ q.write.interLock = true) ∧
    (es.any (Event.failsOn x) = false → ∃ (done : List MessageFormat) (calls : List (Head × Bytes)),
      framesOn proto connectCount taskQueueMax x caches es = done ++ q.write.writeMsgs ∧
      q.writing = (q.write.writeMsgs.take 1).map (fun m => ⟨m, m.length⟩) ∧
      (done ++ q.write.writeMsgs).map MessageFormat.wire = calls.map wireOf ∧
      ((∀ hb ∈ calls, hb.2.length ≤ 1048576) → ∀ k, ∃ whole, done.length ≤ whole ∧
        PeerQueues (WriteLink.bytesOf done ++ (WriteLink.bytesOf (q.write.writeMsgs.take 1)).take k)
          (calls.take whole))) := by
  obtain ⟨ls, l, hls, hm, hacc, hfailed⟩ := (mirrors_run hrun x).present q hx
  refine ⟨settledOn_sublist hrun x, fun hfail => ?_, fun hok => ?_⟩
  · rcases WriteLink.healthy_or_wedged hls with h | h
    · rw [h.not_failed, hfail] at hfailed
      cases hfailed
    · have hnone := hm.outstanding
      rw [h.none_outstanding] at hnone
      exact ⟨List.map_eq_nil_iff.mp hnone.symm, hm.side ▸ h.locked⟩
  · have hok' : l.failed = false := hfailed.trans hok
    obtain ⟨done, hdone, houtstanding, hpeer⟩ := WriteLink.arrives hls hok' (by
      rw [hm.outstanding]
      intro o ho
      obtain ⟨a, _, rfl⟩ := List.mem_map.mp ho
      rfl)
    have haccepted := WriteLink.accepted_run hls
    rw [hm.side] at hdone houtstanding hpeer
    rw [hm.outstanding] at houtstanding
    refine ⟨done, ls.flatMap WriteLink.Event.frames, ?_, ?_, ?_, hpeer⟩
    · rw [← hacc, ← haccepted, hdone]
    · have hfst := congrArg (List.map Prod.fst) houtstanding
      rw [List.map_map, List.map_map] at hfst
      exact (List.map_id _).symm.trans hfst
    · rw [← hdone, haccepted]
      exact WriteLink.wire_accepts ls

/-- The two replies of the only worker. -/
theorem what_is_written_arrives_two : ∃ s q done,
    Run.run (step Proto.wire 1 10) (start oneWorker) (twoRequests ++ twoAnswers) = some s ∧
      s.world.sessions[0]? = some q ∧ s.settledOn 0 = [robotReply.mf, emptyReply.mf] ∧
      (s.settledOn 0).Sublist (framesOn Proto.wire 1 10 0 oneWorker (twoRequests ++ twoAnswers)) ∧
      framesOn Proto.wire 1 10 0 oneWorker (twoRequests ++ twoAnswers) = done ++ q.write.writeMsgs := by
  obtain ⟨s, hs, hsettled, _⟩ := twoAnswers_run
  obtain ⟨q, hq, _⟩ : Reaches s.world 0 emptyReply :=
    (inv_run hs).routed ⟨1, emptyReply, some 0⟩ (by simp [hsettled]) 0 rfl
  obtain ⟨hsub, _, hok⟩ := what_is_written_arrives Proto.wire 1 10 _ _ s 0 q hs hq
  obtain ⟨done, calls, hdone, _⟩ := hok rfl
  exact ⟨s, q, done, hs, hq, by rw [settledOn, hsettled]; rfl, hsub, hdone⟩

end Serving

end BServer
