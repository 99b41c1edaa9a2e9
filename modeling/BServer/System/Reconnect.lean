import BServer.System.Heartbeat
import BServer.System.LiveBindings

/-!
# `System.Reconnect` — the heartbeat and the callback, step by step

A pass of the heartbeat or of the server-list callback looks a slot up, resolves and connects if nothing is bound
there, and registers the new session with `fix_set`, which does not look again. Each of these is a step of its
own here (`Reconnect.step`), so that other passes, closes and connections of startup may come between them; a
pass that nobody interrupts is the loop of `System.ServerList` (`pass_alone`).

`at_most_one_open` is what the two looks amount to: as long as every registration finds its slot still unbound,
and every close comes while its id is held by the closing session or by nobody, no two open sessions share an id.
`connectedTwice` is a run in which both passes look before either registers. The first session is replaced in the
registry, and stays open.
-/

namespace BServer

open Bytes

/-! ## Passes -/

/-- Which loop a pass runs. -/
inductive Loop where
  | work
  | servlistCallback
deriving DecidableEq

/-- One turn of the loop. -/
def Loop.visit (loop : Loop) (net : Network) (connectCount : Int) : Bytes × Nat → Links → Option Links :=
  match loop with
  | work => heartVisit net connectCount
  | servlistCallback => callbackVisit net connectCount

/-- Where a pass is in the visit of a slot. -/
inductive Stage where
  /-- before `fix_get` -/
  | look
  /-- the slot was unbound, and the name resolved -/
  | resolved (serverId : Bytes)
  /-- the connection attempt is over: the error, and the remote endpoint -/
  | connected (serverId : Bytes) (error : Bool) (address : Bytes) (port : Nat)
deriving DecidableEq

/-- One iteration of a loop, with the visits it has left; the first is the one it is at. -/
structure Pass where
  loop  : Loop
  todo  : List (Bytes × Nat)
  stage : Stage
deriving DecidableEq

/-- The program, and the passes under way in it. -/
structure Reconnect where
  world  : World
  passes : List Pass

namespace Reconnect

def start : Reconnect := ⟨.start, []⟩

inductive Event where
  /-- an iteration starts, on the server map as it is then -/
  | begin (loop : Loop) (m : ServerMap)
  /-- the `i`-th pass calls `fix_get`, and resolves the name if it has to -/
  | look (i : Nat) (resolves : Bool)
  /-- its `connect` returns -/
  | connect (i : Nat) (error : Bool) (address : Bytes) (port : Nat)
  /-- it brings the session up: `fix_set`, or the `erase` of a failed attempt -/
  | register (i : Nat)
  /-- a session closes -/
  | close (x : SessPtr)
  /-- a connection of `init_server_connection` -/
  | startup (error : Bool) (address : Bytes) (port : Nat)

/-- A pass after it looked a slot up. -/
def looked (loop : Loop) (bound resolves : Bool) (v : Bytes × Nat) (vs : List (Bytes × Nat)) : Pass :=
  if bound then ⟨loop, vs, .look⟩
  else
    match entryOf v.1 with
    | .named a b c =>
        -- `resolve` throws, out of both loops
        if resolves then ⟨loop, v :: vs, .resolved (a ++ colon :: b ++ colon :: c)⟩ else ⟨loop, [], .look⟩
    | .longer => ⟨loop, vs, .look⟩
    | .shorter =>
        match loop with
        | .work => ⟨loop, vs, .look⟩
        | .servlistCallback => ⟨loop, [], .look⟩

section Step

variable (connectCount : Int)

def step (s : Reconnect) : Event → Option Reconnect
  | .begin loop m =>
      -- the heartbeat is one thread, and ends an iteration before it starts the next
      if loop = .work ∧ s.passes.any (fun p => p.loop = .work ∧ p.todo ≠ []) then none
      else some { s with passes := s.passes ++ [⟨loop, m.visits connectCount, .look⟩] }
  | .look i resolves =>
      match s.passes[i]? with
      | some ⟨loop, v :: vs, .look⟩ =>
          let p := looked loop (s.world.boundSlot v.1 v.2).isSome resolves v vs
          some { s with passes := s.passes.set i p }
      | _ => none
  | .connect i error address port =>
      match s.passes[i]? with
      | some ⟨loop, todo, .resolved serverId⟩ =>
          some { s with passes := s.passes.set i ⟨loop, todo, .connected serverId error address port⟩ }
      | _ => none
  | .register i =>
      match s.passes[i]? with
      | some ⟨loop, v :: vs, .connected serverId error address port⟩ =>
          let up := BringUp.connectFixId error serverId (slotId v.1 v.2)
          some { world := s.world.bringUp connectCount up address port
                 passes := s.passes.set i ⟨loop, vs, .look⟩ }
      | _ => none
  | .close x => some { s with world := s.world.close x }
  | .startup error address port =>
      some { s with world := s.world.bringUp connectCount (.connect error) address port }

end Step

/-! ## A pass that nobody interrupts -/

section Alone

variable {net : Network} {connectCount : Int} {loop : Loop} {v : Bytes × Nat} {vs : List (Bytes × Nat)}
  {l l' : Links}

theorem run_look (resolves : Bool) (w : World) :
    Run.run (step connectCount) ⟨w, [⟨loop, v :: vs, .look⟩]⟩ [.look 0 resolves]
      = some ⟨w, [looked loop (w.boundSlot v.1 v.2).isSome resolves v vs]⟩ := rfl

/-- The three steps of a visit that connects. -/
theorem run_connects {w : World} {serverId : Bytes} {error : Bool} {address : Bytes} {port : Nat}
    (hlook : looked loop (w.boundSlot v.1 v.2).isSome true v vs = ⟨loop, v :: vs, .resolved serverId⟩) :
    Run.run (step connectCount) ⟨w, [⟨loop, v :: vs, .look⟩]⟩
        [.look 0 true, .connect 0 error address port, .register 0]
      = some ⟨w.bringUp connectCount (.connectFixId error serverId (slotId v.1 v.2)) address port,
          [⟨loop, vs, .look⟩]⟩ := by
  have hrun := Run.run_append (step connectCount) ⟨w, [⟨loop, v :: vs, .look⟩]⟩ [.look 0 true]
    [.connect 0 error address port, .register 0]
  rw [run_look, hlook] at hrun
  exact hrun

/-- Where a visit leaves the pass. -/
def afterVisit (loop : Loop) (vs : List (Bytes × Nat)) (w : World) : Option Links → Reconnect
  | some l' => ⟨l'.world, [⟨loop, vs, .look⟩]⟩
  | none    => ⟨w, [⟨loop, [], .look⟩]⟩

/-- A visit is a run of the pass alone, to its next visit or, where it throws, to its end. -/
theorem visit_alone (net : Network) (connectCount : Int) (loop : Loop) (v : Bytes × Nat)
    (vs : List (Bytes × Nat)) (l : Links) :
    ∃ es, Run.run (step connectCount) ⟨l.world, [⟨loop, v :: vs, .look⟩]⟩ es
      = some (afterVisit loop vs l.world (loop.visit net connectCount v l)) := by
  cases hbound : l.bound v.1 v.2 with
  | some x =>
      have hw : l.world.boundSlot v.1 v.2 = some x := hbound
      refine ⟨[.look 0 false], ?_⟩
      rw [run_look, hw]
      cases loop with
      | work => simp only [Loop.visit, heartVisit, hbound]; rfl
      | servlistCallback => simp only [Loop.visit, callbackVisit, hbound]; rfl
  | none =>
      have hw : l.world.boundSlot v.1 v.2 = none := hbound
      cases hentry : entryOf v.1 with
      | named a b c =>
          have hvisit : loop.visit net connectCount v l = connectSlot net connectCount a b c v l := by
            cases loop with
            | work => simp only [Loop.visit, heartVisit, hbound, hentry]
            | servlistCallback => simp only [Loop.visit, callbackVisit, hbound, hentry]
          have hlook : ∀ resolves, looked loop (l.world.boundSlot v.1 v.2).isSome resolves v vs
              = if resolves then ⟨loop, v :: vs, .resolved (a ++ colon :: b ++ colon :: c)⟩
                else ⟨loop, [], .look⟩ := by
            intro resolves
            rw [hw]
            simp only [looked, hentry]
            rfl
          rw [hvisit, connectSlot]
          by_cases hres : net.resolves (cString b) (cString c) = true
          · rw [if_pos hres]
            exact ⟨_, run_connects (by rw [hlook, if_pos rfl])⟩
          · rw [if_neg hres]
            refine ⟨[.look 0 false], ?_⟩
            rw [run_look, hlook]
            rfl
      | longer =>
          refine ⟨[.look 0 false], ?_⟩
          rw [run_look, hw]
          cases loop with
          | work => simp only [Loop.visit, heartVisit, hbound, looked, hentry]; rfl
          | servlistCallback => simp only [Loop.visit, callbackVisit, hbound, looked, hentry]; rfl
      | shorter =>
          refine ⟨[.look 0 false], ?_⟩
          rw [run_look, hw]
          cases loop with
          | work => simp only [Loop.visit, heartVisit, hbound, looked, hentry]; rfl
          | servlistCallback => simp only [Loop.visit, callbackVisit, hbound, looked, hentry]; rfl

/-- **A pass that nobody interrupts** is the loop as a whole. -/
theorem pass_alone (net : Network) (connectCount : Int) (loop : Loop) (vs : List (Bytes × Nat)) (l : Links) :
    ∃ es, Run.run (step connectCount) ⟨l.world, [⟨loop, vs, .look⟩]⟩ es
      = some ⟨(Sweep.run (loop.visit net connectCount) vs l).world, [⟨loop, [], .look⟩]⟩ := by
  induction vs generalizing l with
  | nil => exact ⟨[], rfl⟩
  | cons v vs ih =>
      obtain ⟨es, hes⟩ := visit_alone net connectCount loop v vs l
      cases hvisit : loop.visit net connectCount v l with
      | none =>
          rw [hvisit] at hes
          rw [Sweep.run_cons_none hvisit]
          exact ⟨es, hes⟩
      | some l' =>
          rw [hvisit] at hes
          obtain ⟨fs, hfs⟩ := ih l'
          rw [Sweep.run_cons_some hvisit]
          refine ⟨es ++ fs, ?_⟩
          rw [Run.run_append, hes]
          exact hfs

end Alone

/-! ## At most one open session for an id -/

/-- No two open outbound sessions carry the same id. -/
def AtMostOne (w : World) : Prop :=
  ∀ (x y : SessPtr) (s t : Session), w.sessions[x]? = some s → w.sessions[y]? = some t →
    s.kind = .client → t.kind = .client → s.shut = false → t.shut = false → s.id = t.id → x = y

/-- The event comes in time: a registration finds its slot unbound, and a close its own session under its id,
    or nobody. -/
def Timely (s : Reconnect) : Event → Prop
  | .register i =>
      ∀ p v vs, s.passes[i]? = some p → p.todo = v :: vs → s.world.boundSlot v.1 v.2 = none
  | .close x =>
      ∀ t, s.world.sessions[x]? = some t → t.kind = .client →
        ∀ y, s.world.registries.peerMapClient.fixGet t.id = some y → y = x
  | _ => True

/-- **The invariant.** Every open outbound session is bound under its id, which is not the empty one. -/
structure Held (w : World) : Prop where
  held : ∀ (x : SessPtr) (s : Session), w.sessions[x]? = some s → s.kind = .client → s.shut = false →
    w.registries.peerMapClient.fixGet s.id = some x
  free : w.registries.peerMapClient.fixGet [] = none

namespace Held

variable {w : World} {connectCount : Int}

theorem start : Held .start where
  held := fun _ _ h => by cases h
  free := rfl

/-- Two sessions under one id are both what is bound there. -/
theorem atMostOne (h : Held w) : AtMostOne w := by
  intro x y s t hx hy hs ht hsopen htopen hid
  have hbound := h.held x s hx hs hsopen
  rw [hid, h.held y t hy ht htopen] at hbound
  exact (Option.some.inj hbound).symm

/-- An outbound session brought up under an id that nobody holds. -/
theorem bringUp (h : Held w) {up : BringUp} {address : Bytes} {port : Nat} (hk : up.kind = .client)
    (hfree : w.registries.peerMapClient.fixGet
      (up.built connectCount w.sessions.length address port .new w.registries).1.id = none)
    (hid : (up.built connectCount w.sessions.length address port .new w.registries).1.shut = false →
      (up.built connectCount w.sessions.length address port .new w.registries).1.id ≠ []) :
    Held (w.bringUp connectCount up address port) := by
  have hget := BringUp.built_client connectCount w.sessions.length address port .new w.registries hk
  constructor
  case held =>
    intro y t hy hclient hopen
    change (up.built connectCount w.sessions.length address port .new w.registries).2.peerMapClient.fixGet t.id
      = some y
    rw [hget]
    rcases World.sessions_bringUp_cases hy with hy | ⟨rfl, rfl⟩
    · have hbound := h.held y t hy hclient hopen
      rw [if_neg]
      · exact hbound
      · intro he
        rw [he, hfree] at hbound
        cases hbound
    · rw [if_pos rfl, Session.boundAfter, hopen]
      rfl
  case free =>
    change (up.built connectCount w.sessions.length address port .new w.registries).2.peerMapClient.fixGet []
      = none
    rw [hget, Session.boundAfter]
    split
    · next he =>
        split
        · rfl
        · next hopen => exact absurd he.symm (hid (Bool.eq_false_iff.mpr hopen))
    · exact h.free

theorem close (h : Held w) {x : SessPtr} (htime : ∀ t, w.sessions[x]? = some t → t.kind = .client →
    ∀ y, w.registries.peerMapClient.fixGet t.id = some y → y = x) : Held (w.close x) := by
  cases hx : w.sessions[x]? with
  | none =>
      rw [World.close, hx]
      exact h
  | some s =>
      have hreg : (w.close x).registries = (s.close w.registries).2 := by
        rw [World.close_eq hx]
        rfl
      constructor
      case held =>
        intro y t hy hclient hopen
        rw [World.close_eq hx] at hy
        rcases World.getElem?_set_some hx hy with ⟨_, rfl⟩ | ⟨hne, hy⟩
        · cases hopen
        · have hbound := h.held y t hy hclient hopen
          rw [hreg]
          rcases World.kind_cases s with hk | hk
          · rw [Session.close_server hk]
            exact hbound
          · rw [Session.close_fixGet hk, if_neg]
            · exact hbound
            · intro he
              rw [he] at hbound
              exact hne (htime s hx hk y hbound)
      case free =>
        rw [hreg]
        rcases World.kind_cases s with hk | hk
        · rw [Session.close_server hk]
          exact h.free
        · rw [Session.close_fixGet hk, h.free, ite_self]

theorem step {s s' : Reconnect} {e : Event} (h : Held s.world) (htime : Timely s e)
    (hs : Reconnect.step connectCount s e = some s') : Held s'.world := by
  cases e with
  | begin loop m =>
      simp only [Reconnect.step] at hs
      split at hs
      · cases hs
      · cases hs
        exact h
  | look i resolves =>
      simp only [Reconnect.step] at hs
      split at hs
      · cases hs
        exact h
      · cases hs
  | connect i error address port =>
      simp only [Reconnect.step] at hs
      split at hs
      · cases hs
        exact h
      · cases hs
  | register i =>
      simp only [Reconnect.step] at hs
      split at hs
      · next loop v vs serverId error address port hp =>
          cases hs
          have hid := BringUp.built_fix_id connectCount s.world.sessions.length address port .new
            s.world.registries error serverId (slotId v.1 v.2)
          refine h.bringUp rfl ?_ ?_
          · rw [hid]
            exact htime _ v vs hp rfl
          · rw [hid]
            exact fun _ => slotId_ne_nil _ _
      · cases hs
  | close x =>
      cases hs
      exact h.close htime
  | startup error address port =>
      cases hs
      refine h.bringUp rfl ?_ ?_
      · exact BringUp.built_set_free connectCount _ address port .new s.world.registries error h.free
      · intro hopen
        rcases BringUp.built_client_id connectCount _ address port .new s.world.registries rfl hopen
          with ⟨_, _, hup⟩ | ⟨i, hi⟩
        · cases hup
        · rw [hi]
          exact slotId_ne_nil _ _

end Held

/-- **At most one open session per slot**, in every state reached by a run whose events all come in time. -/
theorem at_most_one_open (connectCount : Int) (es : List Event) (s : Reconnect)
    (htimely : Run.Meets (step connectCount) Timely start es)
    (hrun : Run.run (step connectCount) start es = some s) : AtMostOne s.world :=
  (Run.run_meets (step connectCount) (I := fun s => Held s.world) Held.start
    (fun _ _ _ h ht hs => h.step ht hs) htimely hrun).atMostOne

/-- A registration that comes late: the session it replaces in the registry stays open. -/
theorem late_register_doubles {connectCount : Int} {s s' : Reconnect} {i : Nat} {loop : Loop} {v : Bytes × Nat}
    {vs : List (Bytes × Nat)} {serverId address : Bytes} {port : Nat} {x : SessPtr} (hlive : s.world.Live)
    (hp : s.passes[i]? = some ⟨loop, v :: vs, .connected serverId false address port⟩) (hid : serverId ≠ [])
    (hbound : s.world.boundSlot v.1 v.2 = some x) (hs : step connectCount s (.register i) = some s') :
    ¬ AtMostOne s'.world := by
  obtain ⟨t, ht, hkind, htid, hopen⟩ := hlive.outbound _ x hbound
  have hlt : x < s.world.sessions.length := (List.getElem?_eq_some_iff.mp ht).1
  simp only [step, hp] at hs
  cases hs
  have hnew : (BringUp.built (.connectFixId false serverId (slotId v.1 v.2)) connectCount
      s.world.sessions.length address port .new s.world.registries).1.shut = false := by
    -- `fix_set` took it
    have hclient : (BringUp.connectFixId false serverId (slotId v.1 v.2)).kind = .client := rfl
    have hget := BringUp.built_client connectCount s.world.sessions.length address port .new
      s.world.registries hclient (slotId v.1 v.2)
    rw [BringUp.built_fix_id, if_pos rfl, BringUp.built_fix_registry _ _ _ _ _ _ hid (slotId_ne_nil _ _),
      PeerHandleMapForClient.fixGet_fixSet hid (slotId_ne_nil _ _), if_pos rfl, Session.boundAfter] at hget
    split at hget
    · cases hget
    · next hne => exact Bool.eq_false_iff.mpr hne
  intro h
  have hxy := h x s.world.sessions.length t _ (World.sessions_bringUp_old ht) World.sessions_bringUp_last hkind
    (BringUp.built_kind _ _ _ _ _ _ _) hopen hnew (htid.trans (BringUp.built_fix_id _ _ _ _ _ _ _ _ _).symm)
  exact absurd hlt (hxy ▸ Nat.lt_irrefl _)

/-! ### Two passes over one slot -/

def oneServer : ServerMap := ⟨[(1, ascii "server:10.0.0.1:9000")], by decide⟩

/-- The heartbeat connects the slot, its session closes, and the callback connects it again. -/
def connectedInTurn : List Event :=
  [.begin .work oneServer, .look 0 true, .connect 0 false (ascii "10.0.0.1") 9000, .register 0, .close 0,
    .begin .servlistCallback oneServer, .look 1 true, .connect 1 false (ascii "10.0.0.1") 9000, .register 1]

theorem at_most_one_in_turn :
    ∃ s, Run.run (step 1) start connectedInTurn = some s ∧ AtMostOne s.world := by
  refine ⟨_, rfl, at_most_one_open 1 connectedInTurn _ ?_ rfl⟩
  refine (Run.meets_cons _ rfl).mpr ⟨trivial, (Run.meets_cons _ rfl).mpr ⟨trivial, (Run.meets_cons _ rfl).mpr
    ⟨trivial, (Run.meets_cons _ rfl).mpr ⟨?_, (Run.meets_cons _ rfl).mpr ⟨?_, (Run.meets_cons _ rfl).mpr
    ⟨trivial, (Run.meets_cons _ rfl).mpr ⟨trivial, (Run.meets_cons _ rfl).mpr ⟨trivial, (Run.meets_cons _ rfl).mpr
    ⟨?_, trivial⟩⟩⟩⟩⟩⟩⟩⟩⟩
  · intro p v vs hp hv
    cases hp
    cases hv
    rfl
  · intro t ht _ y hy
    cases ht
    exact (Option.some.inj hy).symm
  · intro p v vs hp hv
    cases hp
    cases hv
    rfl

/-- Both passes look before either registers. -/
def connectedTwice : List Event :=
  [.begin .work oneServer, .begin .servlistCallback oneServer, .look 0 true, .look 1 true,
    .connect 0 false (ascii "10.0.0.1") 9000, .connect 1 false (ascii "10.0.0.1") 9000, .register 0, .register 1]

/-- The slot then has two open sessions. -/
theorem connectedTwice_doubles :
    ¬ ∀ (es : List Event) (s : Reconnect), Run.run (step 1) start es = some s → AtMostOne s.world := by
  intro h
  have hone := h connectedTwice _ rfl 0 1 _ _ rfl rfl rfl rfl rfl rfl rfl
  cases hone

end Reconnect

end BServer
