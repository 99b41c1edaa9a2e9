import Mathlib.Logic.Function.Basic
import BServer.System.ServerList
import BServer.Task.Responser

/-!
# `System.Registration` — what goes first on an outbound connection

The constructor of `peer_handle_client` brings its session up, and from then on the session can be found in the
registry. Only after it does `registe` post the registration, to be written by the thread of the session's
`io_service`. In between, a worker that finds the session writes on it directly, and the heartbeat may post a
keepalive before the registration is. `Wiring.step` has a step for each of these.

What a session is posted is written in the order of the posts: every `io_service` is run by one thread.

`registers_first`: as long as workers write on an outbound session only once its registration is on the wire, and
the heartbeat posts to it only once its registration is posted, the registration is the first frame of every
outbound session. `earlyDispatch` is a run in which a worker comes first.
-/

namespace BServer

open Bytes

/-! ## Building, posting, writing -/

/-- The program, with what its threads have under way. -/
structure Wiring where
  world    : World
  /-- sessions of a `peer_handle_client` whose `registe` was not called yet, with its `conected_` -/
  building : List (SessPtr × Int)
  /-- what was posted to be written on a session, in order -/
  posted   : SessPtr → List MessageFormat
  /-- sessions that workers found, with the frames they are about to write -/
  found    : List SessionWrite
  /-- sessions that the heartbeat found, and is about to post a keepalive to -/
  polled   : List SessPtr
  /-- the frames of the writes started on a session, in order -/
  wire     : SessPtr → List MessageFormat

namespace Wiring

def start : Wiring := ⟨.start, [], fun _ => [], [], [], fun _ => []⟩

inductive Event where
  /-- the constructor of a `peer_handle_client`, with or without a fixed slot -/
  | build (up : BringUp) (address : Bytes) (port : Nat)
  /-- `registe` is called on the `i`-th of those built -/
  | registe (i : Nat)
  /-- a worker looks for a session to dispatch to -/
  | look (rand : Nat) (d : Dispatch)
  /-- the `i`-th session that was found is written on -/
  | dispatch (i : Nat)
  /-- the heartbeat looks a slot up -/
  | poll (id : Bytes)
  /-- the `i`-th session it found is posted a keepalive -/
  | beat (i : Nat)
  /-- the `io_service` of a session runs the first post to it -/
  | runPosted (x : SessPtr)
  /-- the `i`-th outstanding write of a session completes -/
  | written (x : SessPtr) (i : Nat) (error : Bool)
  | accept (address : Bytes) (port : Nat)
  | close (x : SessPtr)

/-- `write` on a session. -/
def write (st : Wiring) (x : SessPtr) (mf : MessageFormat) : Option Wiring :=
  match st.world.sessions[x]? with
  | none => none
  | some s =>
      let out := s.write.write mf
      some { st with
        world := st.world.advance x { s with write := out.1, writing := s.writing ++ out.2 } []
        wire := Function.update st.wire x (st.wire x ++ out.2.map AsyncWrite.source) }

section Step

variable (connectCount : Int)

def step (st : Wiring) : Event → Option Wiring
  | .build up address port =>
      if up.kind = .client then
        let x := st.world.sessions.length
        let conected := up.conected connectCount x (.new up.kind address port .new) st.world.registries
        some { st with
          world := st.world.bringUp connectCount up address port
          building := st.building ++ [(x, conected)] }
      else none
  | .registe i =>
      match st.building[i]? with
      | none => none
      | some (x, conected) =>
          some { st with
            building := st.building.eraseIdx i
            posted := Function.update st.posted x (st.posted x ++ BServer.registe conected) }
  | .look rand d =>
      let out := st.world.registries.dispatch rand d
      some { st with world := { st.world with registries := out.2 }, found := st.found ++ out.1 }
  | .dispatch i =>
      match st.found[i]? with
      | none => none
      | some (x, mf) => ({ st with found := st.found.eraseIdx i } : Wiring).write x mf
  | .poll id =>
      match st.world.registries.peerMapClient.fixGet id with
      | none => some st
      | some x => some { st with polled := st.polled ++ [x] }
  | .beat i =>
      match st.polled[i]? with
      | none => none
      | some x =>
          match st.world.sessions[x]? with
          | none => none
          | some _ =>
              some { st with
                polled := st.polled.eraseIdx i
                posted := Function.update st.posted x (st.posted x ++ [heartFrame]) }
  | .runPosted x =>
      match st.posted x with
      | [] => none
      | mf :: rest => ({ st with posted := Function.update st.posted x rest } : Wiring).write x mf
  | .written x i error =>
      match st.world.sessions[x]?, World.step connectCount st.world (.written x i error) with
      | some s, some w =>
          let started := (s.write.handleWrite error).2.1
          some { st with
            world := w
            wire := Function.update st.wire x (st.wire x ++ started.map AsyncWrite.source) }
      | _, _ => none
  | .accept address port => some { st with world := st.world.bringUp connectCount .accept address port }
  | .close x => some { st with world := st.world.close x }

end Step

/-- A write is the event of the world. -/
theorem write_world {connectCount : Int} {st st' : Wiring} {x : SessPtr} {m : MessageFormat} {h : Head}
    {body : Bytes} (hw : st.write x (m.framed h body) = some st') :
    World.step connectCount st.world (.write x m h body) = some st'.world := by
  unfold write at hw
  split at hw
  · cases hw
  · next s hx =>
      cases hw
      simp only [World.step, hx]

/-! ## Registration first -/

theorem registerFrame_cmd : (headOf registerFrame.wire).cmd = 300 := by
  rw [registerFrame, MessageFormat.framed_wire, MessageFormat.headOf_headBytes]

/-- The first frame of every outbound session is its registration. -/
def RegistersFirst (st : Wiring) : Prop :=
  ∀ (x : SessPtr) (s : Session), st.world.sessions[x]? = some s → s.kind = .client →
    ∀ mf rest, st.wire x = mf :: rest → mf = registerFrame ∧ (headOf mf.wire).cmd = 300

/-- The event comes in time: a worker writes on an outbound session whose registration is on the wire, and the
    heartbeat posts to one whose registration was posted. -/
def Timely (st : Wiring) : Event → Prop
  | .dispatch i =>
      ∀ x mf s, st.found[i]? = some (x, mf) → st.world.sessions[x]? = some s → s.kind = .client →
        registerFrame ∈ st.wire x
  | .beat i =>
      ∀ x s, st.polled[i]? = some x → st.world.sessions[x]? = some s → s.kind = .client →
        registerFrame ∈ st.wire x ∨ registerFrame ∈ st.posted x
  | _ => True

/-- An outbound session waits for its registration, with nothing in front of that, or it is on the wire. -/
inductive InTurn (s : Session) (posted wire : List MessageFormat) : Prop
  | waiting (wire_nil : wire = []) (fresh : s.write = .fresh) (idle : s.writing = [])
      (next : ∀ mf rest, posted = mf :: rest → mf = registerFrame)
  | registered (rest : List MessageFormat) (wire_eq : wire = registerFrame :: rest)

namespace InTurn

variable {s s' : Session} {posted wire : List MessageFormat}

/-- More frames follow a registration that is on the wire. -/
theorem more (h : InTurn s posted wire) (hmem : registerFrame ∈ wire) (posted' more : List MessageFormat) :
    InTurn s' posted' (wire ++ more) := by
  cases h with
  | waiting hnil _ _ _ =>
      rw [hnil] at hmem
      cases hmem
  | registered rest heq => exact .registered (rest ++ more) (by rw [heq, List.cons_append])

/-- Where a write is outstanding, the registration is on the wire. -/
theorem onWire (h : InTurn s posted wire) (hwriting : s.writing ≠ []) : registerFrame ∈ wire := by
  cases h with
  | waiting _ _ hidle _ => exact absurd hidle hwriting
  | registered rest heq =>
      rw [heq]
      exact List.mem_cons_self

/-- A post behind the registration. -/
theorem post (h : InTurn s posted wire) (hmem : registerFrame ∈ wire ∨ registerFrame ∈ posted)
    (more : List MessageFormat) : InTurn s (posted ++ more) wire := by
  cases h with
  | waiting hnil hfresh hidle hnext =>
      refine .waiting hnil hfresh hidle ?_
      rcases hmem with hmem | hmem
      · rw [hnil] at hmem
        cases hmem
      · cases posted with
        | nil => cases hmem
        | cons mf rest =>
            intro mf' rest' heq
            cases heq
            exact hnext _ rest rfl
  | registered rest heq => exact .registered rest heq

/-- The first post is written. -/
theorem run {mf : MessageFormat} {rest : List MessageFormat} (h : InTurn s (mf :: rest) wire) :
    InTurn s' rest (wire ++ (s.write.write mf).2.map AsyncWrite.source) := by
  cases h with
  | waiting hnil hfresh _ hnext =>
      -- nothing was written yet, so the registration starts a write at once
      refine .registered [] ?_
      rw [hnil, hfresh, hnext mf rest rfl]
      rfl
  | registered rest' heq => exact .registered _ (by rw [heq, List.cons_append])

theorem keep (h : InTurn s posted wire) (hwrite : s'.write = s.write) (hwriting : s'.writing = s.writing) :
    InTurn s' posted wire := by
  cases h with
  | waiting hnil hfresh hidle hnext =>
      exact .waiting hnil (hwrite.trans hfresh) (hwriting.trans hidle) hnext
  | registered rest heq => exact .registered rest heq

end InTurn

/-- **The invariant.** Every outbound session is `InTurn`; nothing was posted to one whose `registe` is still to
    come; and nothing is known of sessions that do not exist yet. -/
structure Inv (st : Wiring) : Prop where
  inTurn  : ∀ (x : SessPtr) (s : Session), st.world.sessions[x]? = some s → s.kind = .client →
    InTurn s (st.posted x) (st.wire x)
  pending : ∀ x c, (x, c) ∈ st.building → st.posted x = [] ∧ st.wire x = [] ∧
    ∃ s : Session, st.world.sessions[x]? = some s ∧ s.kind = .client
  once    : (st.building.map Prod.fst).Nodup
  unused  : ∀ x, st.world.sessions.length ≤ x → st.posted x = [] ∧ st.wire x = []

namespace Inv

variable {connectCount : Int} {st st' : Wiring}

theorem start : Inv .start where
  inTurn := fun _ _ h => by cases h
  pending := fun _ _ h => by cases h
  once := List.nodup_nil
  unused := fun _ _ => ⟨rfl, rfl⟩

/-- A session whose registration was posted or written does not wait for `registe`. -/
theorem not_building (h : Inv st) {x : SessPtr} {s : Session} (hx : st.world.sessions[x]? = some s)
    (hreg : s.kind = .client → registerFrame ∈ st.wire x ∨ registerFrame ∈ st.posted x) (c : Int) :
    (x, c) ∉ st.building := by
  intro hmem
  obtain ⟨hposted, hwire, s', hx', hclient⟩ := h.pending x c hmem
  rw [hx] at hx'
  cases hx'
  rcases hreg hclient with hreg | hreg
  · rw [hwire] at hreg
    cases hreg
  · rw [hposted] at hreg
    cases hreg

/-- A step that concerns one session, which is not waiting for `registe`. -/
theorem put (h : Inv st) {x : SessPtr} {s : Session} (s' : Session) {posted wire : List MessageFormat}
    (hx : st.world.sessions[x]? = some s) (hbuilding : ∀ c, (x, c) ∉ st.building)
    (hsessions : st'.world.sessions = st.world.sessions.set x s') (hkind : s'.kind = s.kind)
    (hkeep : st'.building = st.building) (hposted : st'.posted = Function.update st.posted x posted)
    (hwire : st'.wire = Function.update st.wire x wire) (hturn : s.kind = .client → InTurn s' posted wire) :
    Inv st' := by
  have hlt : x < st.world.sessions.length := (List.getElem?_eq_some_iff.mp hx).1
  constructor
  case inTurn =>
    intro y t hy hclient
    rw [hsessions] at hy
    rw [hposted, hwire]
    rcases World.getElem?_set_some hx hy with ⟨rfl, rfl⟩ | ⟨hne, hy⟩
    · rw [Function.update_self, Function.update_self]
      exact hturn (hkind.symm.trans hclient)
    · rw [Function.update_of_ne hne, Function.update_of_ne hne]
      exact h.inTurn y t hy hclient
  case pending =>
    intro y c hy
    rw [hkeep] at hy
    have hne : y ≠ x := fun he => hbuilding c (he ▸ hy)
    rw [hposted, hwire, Function.update_of_ne hne, Function.update_of_ne hne, hsessions,
      List.getElem?_set_ne hne.symm]
    exact h.pending y c hy
  case once =>
    rw [hkeep]
    exact h.once
  case unused =>
    intro y hy
    rw [hsessions, List.length_set] at hy
    have hne : y ≠ x := Nat.ne_of_gt (Nat.lt_of_lt_of_le hlt hy)
    rw [hposted, hwire, Function.update_of_ne hne, Function.update_of_ne hne]
    exact h.unused y hy

/-- A step that writes nothing and posts nothing. -/
theorem frame (h : Inv st) (hlen : st'.world.sessions.length = st.world.sessions.length)
    (hsessions : ∀ (y : SessPtr) (t : Session), st'.world.sessions[y]? = some t →
      ∃ s : Session, st.world.sessions[y]? = some s ∧ t.kind = s.kind ∧ t.write = s.write ∧
        t.writing = s.writing)
    (hkeep : st'.building = st.building) (hposted : st'.posted = st.posted) (hwire : st'.wire = st.wire) :
    Inv st' := by
  constructor
  case inTurn =>
    intro y t hy hclient
    obtain ⟨s, hs, hkind, hwrite, hwriting⟩ := hsessions y t hy
    rw [hposted, hwire]
    exact (h.inTurn y s hs (hkind.symm.trans hclient)).keep hwrite hwriting
  case pending =>
    intro y c hy
    rw [hkeep] at hy
    obtain ⟨hp, hw, s, hs, hclient⟩ := h.pending y c hy
    have hlt : y < st'.world.sessions.length := by
      rw [hlen]
      exact (List.getElem?_eq_some_iff.mp hs).1
    obtain ⟨s', hs', hkind, _⟩ := hsessions y _ (List.getElem?_eq_getElem hlt)
    rw [hs] at hs'
    cases hs'
    rw [hposted, hwire]
    exact ⟨hp, hw, _, List.getElem?_eq_getElem hlt, hkind.trans hclient⟩
  case once =>
    rw [hkeep]
    exact h.once
  case unused =>
    intro y hy
    rw [hlen] at hy
    rw [hposted, hwire]
    exact h.unused y hy

/-- A new session: nothing was written on it, and it waits for `registe` if it is outbound. -/
theorem bringUp (h : Inv st) {up : BringUp} {address : Bytes} {port : Nat}
    (new : List (SessPtr × Int)) (hnew : ∀ y c, (y, c) ∈ new → y = st.world.sessions.length ∧ up.kind = .client)
    (honce : (new.map Prod.fst).Nodup)
    (hworld : st'.world = st.world.bringUp connectCount up address port)
    (hkeep : st'.building = st.building ++ new) (hposted : st'.posted = st.posted) (hwire : st'.wire = st.wire) :
    Inv st' := by
  have hsessions : st'.world.sessions = st.world.sessions ++
      [(up.built connectCount st.world.sessions.length address port .new st.world.registries).1] := by
    rw [hworld]
    rfl
  have hlast := h.unused st.world.sessions.length (Nat.le_refl _)
  constructor
  case inTurn =>
    intro y t hy hclient
    rw [hsessions] at hy
    rw [hposted, hwire]
    rcases World.getElem?_snoc_some hy with hy | ⟨rfl, rfl⟩
    · exact h.inTurn y t hy hclient
    · obtain ⟨hfresh, hidle⟩ := BringUp.built_writes connectCount st.world.sessions.length address port .new
        st.world.registries up
      refine .waiting hlast.2 hfresh hidle ?_
      intro mf rest heq
      rw [hlast.1] at heq
      cases heq
  case pending =>
    intro y c hy
    rw [hkeep] at hy
    rw [hposted, hwire, hsessions]
    rcases List.mem_append.mp hy with hy | hy
    · obtain ⟨hp, hw, s, hs, hclient⟩ := h.pending y c hy
      exact ⟨hp, hw, s, (List.getElem?_append_left (List.getElem?_eq_some_iff.mp hs).1).trans hs, hclient⟩
    · obtain ⟨rfl, hclient⟩ := hnew y c hy
      exact ⟨hlast.1, hlast.2, _, List.getElem?_concat_length,
        (BringUp.built_kind _ _ _ _ _ _ up).trans hclient⟩
  case once =>
    rw [hkeep, List.map_append, List.nodup_append]
    refine ⟨h.once, honce, ?_⟩
    rintro y hy z hz rfl
    -- sessions that wait for `registe` exist already
    obtain ⟨⟨y, c⟩, hmem, rfl⟩ := List.mem_map.mp hy
    obtain ⟨⟨z, c'⟩, hmem', heq⟩ := List.mem_map.mp hz
    obtain ⟨_, _, s, hs, _⟩ := h.pending y c hmem
    have hlt : y < st.world.sessions.length := (List.getElem?_eq_some_iff.mp hs).1
    have hlast : y = st.world.sessions.length := Eq.trans (Eq.symm heq) (hnew z c' hmem').1
    exact absurd hlt (hlast ▸ Nat.lt_irrefl _)
  case unused =>
    intro y hy
    rw [hsessions, List.length_append] at hy
    rw [hposted, hwire]
    exact h.unused y (by omega)

/-- `registe` is called: the registration is all that was posted to the session. -/
theorem registe (h : Inv st) {i : Nat} (hs : step connectCount st (.registe i) = some st') : Inv st' := by
  simp only [step] at hs
  split at hs
  · cases hs
  · next x conected hi =>
      cases hs
      have hmem : (x, conected) ∈ st.building := List.mem_of_getElem? hi
      obtain ⟨hposted, hwire, s, hx, hclient⟩ := h.pending x conected hmem
      have hsub : st.building.eraseIdx i ⊆ st.building := List.eraseIdx_subset
      constructor
      case inTurn =>
        intro y t hy hclient
        show InTurn t (Function.update st.posted x _ y) (st.wire y)
        by_cases hyx : y = x
        · subst hyx
          rw [Function.update_self, hposted, List.nil_append]
          rw [hx] at hy
          cases hy
          have hturn := h.inTurn y s hx hclient
          cases hturn with
          | waiting hnil hfresh hidle _ =>
              refine .waiting hnil hfresh hidle ?_
              intro mf rest heq
              -- nothing is posted where the connection failed
              rw [BServer.registe] at heq
              split at heq
              · cases heq
              · cases heq
                rfl
          | registered rest heq => exact .registered rest heq
        · rw [Function.update_of_ne hyx]
          exact h.inTurn y t hy hclient
      case pending =>
        intro y c hy
        have hyx : y ≠ x := by
          rintro rfl
          -- the session would be there twice
          obtain ⟨j, hji, hj⟩ := List.mem_eraseIdx_iff_getElem?.mp hy
          have hmap : (st.building.map Prod.fst)[j]? = (st.building.map Prod.fst)[i]? := by
            rw [List.getElem?_map, List.getElem?_map, hj, hi]
            rfl
          have hlt : j < (st.building.map Prod.fst).length := by
            rw [List.length_map]
            exact (List.getElem?_eq_some_iff.mp hj).1
          exact hji ((List.getElem?_inj hlt h.once).mp hmap)
        obtain ⟨hp, hrest⟩ := h.pending y c (hsub hy)
        refine ⟨?_, hrest⟩
        show Function.update st.posted x _ y = []
        rw [Function.update_of_ne hyx]
        exact hp
      case once => exact h.once.sublist ((List.eraseIdx_sublist _ _).map _)
      case unused =>
        intro y hy
        have hyx : y ≠ x := Nat.ne_of_gt (Nat.lt_of_lt_of_le (List.getElem?_eq_some_iff.mp hx).1 hy)
        refine ⟨?_, (h.unused y hy).2⟩
        show Function.update st.posted x _ y = []
        rw [Function.update_of_ne hyx]
        exact (h.unused y hy).1

/-- A frame is written on a session, from the posts to it or otherwise. -/
theorem write {st₀ : Wiring} (h : Inv st₀) {x : SessPtr} {mf : MessageFormat} {posted : List MessageFormat}
    (hs : st.write x mf = some st') (hworld : st.world = st₀.world) (hkeep : st.building = st₀.building)
    (hwire : st.wire = st₀.wire) (hposted : st.posted = Function.update st₀.posted x posted)
    (hbuilding : ∀ s : Session, st₀.world.sessions[x]? = some s → ∀ c, (x, c) ∉ st₀.building)
    (hturn : ∀ (s s' : Session), st₀.world.sessions[x]? = some s → s.kind = .client →
      InTurn s' posted (st₀.wire x ++ (s.write.write mf).2.map AsyncWrite.source)) : Inv st' := by
  unfold Wiring.write at hs
  rw [hworld, hwire] at hs
  split at hs
  · cases hs
  · next s hx =>
      cases hs
      exact h.put _ hx (hbuilding s hx) rfl rfl hkeep hposted rfl (hturn s _ hx)

/-- A worker writes behind the registration. -/
theorem dispatch (h : Inv st) {i : Nat} (htime : Timely st (.dispatch i))
    (hs : step connectCount st (.dispatch i) = some st') : Inv st' := by
  simp only [step] at hs
  split at hs
  · cases hs
  · next x mf hi =>
      refine h.write hs rfl rfl rfl (Function.update_eq_self x st.posted).symm ?_ ?_
      · intro s hx
        exact h.not_building hx (fun hclient => Or.inl (htime x mf s hi hx hclient))
      · intro s s' hx hclient
        exact (h.inTurn x s hx hclient).more (htime x mf s hi hx hclient) _ _

/-- The heartbeat posts behind the registration. -/
theorem beat (h : Inv st) {i : Nat} (htime : Timely st (.beat i))
    (hs : step connectCount st (.beat i) = some st') : Inv st' := by
  simp only [step] at hs
  split at hs
  · cases hs
  · next x hi =>
      split at hs
      · cases hs
      · next s hx =>
          cases hs
          refine h.put s hx (h.not_building hx (htime x s hi hx)) ?_ rfl rfl rfl
            (Function.update_eq_self x st.wire).symm ?_
          · obtain ⟨hlt, rfl⟩ := List.getElem?_eq_some_iff.mp hx
            exact (List.set_getElem_self hlt).symm
          · intro hclient
            exact (h.inTurn x s hx hclient).post (htime x s hi hx hclient) _

/-- The first post is written. -/
theorem runPosted (h : Inv st) {x : SessPtr} (hs : step connectCount st (.runPosted x) = some st') :
    Inv st' := by
  simp only [step] at hs
  split at hs
  · cases hs
  · next mf rest hp =>
      refine h.write hs rfl rfl rfl rfl ?_ ?_
      · intro s _ c hmem
        -- nothing is posted to a session that waits for `registe`
        have hnone := (h.pending x c hmem).1
        rw [hp] at hnone
        cases hnone
      · intro s s' hx hclient
        have hturn := h.inTurn x s hx hclient
        rw [hp] at hturn
        exact hturn.run

/-- What a completed write leaves of the list of sessions. -/
theorem sessions_written {w w' : World} {x : SessPtr} {s : Session} {i : Nat} {error : Bool}
    (hx : w.sessions[x]? = some s) (hw : World.step connectCount w (.written x i error) = some w') :
    i < s.writing.length ∧ ∃ s' : Session, s'.kind = s.kind ∧ w'.sessions = w.sessions.set x s' := by
  simp only [World.step, hx] at hw
  split at hw
  · next hi =>
      cases hw
      let s' : Session := { s with
        write := (s.write.handleWrite error).1
        writing := s.writing.eraseIdx i ++ (s.write.handleWrite error).2.1 }
      have hs' : (w.advance x s' []).sessions[x]? = some s' :=
        List.getElem?_set_self (List.getElem?_eq_some_iff.mp hx).1
      refine ⟨hi, ?_⟩
      split
      · -- the session closes
        refine ⟨{ s' with shut := true }, rfl, ?_⟩
        rw [World.sessions_close hs']
        exact List.set_set s'
      · exact ⟨s', rfl, rfl⟩
  · cases hw

/-- Where something can complete, the registration is on the wire. -/
theorem written (h : Inv st) {x : SessPtr} {i : Nat} {error : Bool}
    (hs : step connectCount st (.written x i error) = some st') : Inv st' := by
  simp only [step] at hs
  split at hs
  · next s w hx hw =>
      cases hs
      obtain ⟨hi, s', hkind, hsessions⟩ := sessions_written hx hw
      have hwriting : s.writing ≠ [] := List.ne_nil_of_length_pos (Nat.zero_lt_of_lt hi)
      have hon : s.kind = .client → registerFrame ∈ st.wire x :=
        fun hclient => (h.inTurn x s hx hclient).onWire hwriting
      exact h.put s' hx (h.not_building hx (fun hclient => Or.inl (hon hclient))) hsessions hkind rfl
        (Function.update_eq_self x st.posted).symm rfl
        (fun hclient => (h.inTurn x s hx hclient).more (hon hclient) _ _)
  · cases hs

theorem close (h : Inv st) (x : SessPtr) : Inv { st with world := st.world.close x } := by
  cases hx : st.world.sessions[x]? with
  | none =>
      rw [show st.world.close x = st.world by rw [World.close, hx]]
      exact h
  | some s =>
      refine h.frame ?_ ?_ rfl rfl rfl
      · show (st.world.close x).sessions.length = _
        rw [World.sessions_close hx]
        exact List.length_set
      · intro y t hy
        change (st.world.close x).sessions[y]? = some t at hy
        rw [World.sessions_close hx] at hy
        rcases World.getElem?_set_some hx hy with ⟨rfl, rfl⟩ | ⟨_, hy⟩
        · exact ⟨s, hx, rfl, rfl, rfl⟩
        · exact ⟨t, hy, rfl, rfl, rfl⟩

theorem step (h : Inv st) {e : Event} (htime : Timely st e) (hs : Wiring.step connectCount st e = some st') :
    Inv st' := by
  cases e with
  | build up address port =>
      simp only [Wiring.step] at hs
      split at hs
      · next hk =>
          cases hs
          refine h.bringUp _ ?_ ?_ rfl rfl rfl rfl
          · intro y c hy
            cases List.mem_singleton.mp hy
            exact ⟨rfl, hk⟩
          · exact List.nodup_singleton _
      · cases hs
  | registe i => exact h.registe hs
  | look rand d =>
      cases hs
      exact h.frame rfl (fun y t hy => ⟨t, hy, rfl, rfl, rfl⟩) rfl rfl rfl
  | dispatch i => exact h.dispatch htime hs
  | poll id =>
      simp only [Wiring.step] at hs
      split at hs
      · cases hs
        exact h
      · cases hs
        exact h.frame rfl (fun y t hy => ⟨t, hy, rfl, rfl, rfl⟩) rfl rfl rfl
  | beat i => exact h.beat htime hs
  | runPosted x => exact h.runPosted hs
  | written x i error => exact h.written hs
  | accept address port =>
      cases hs
      exact h.bringUp [] (fun _ _ hy => by cases hy) List.nodup_nil rfl (List.append_nil _).symm rfl rfl
  | close x =>
      cases hs
      exact h.close x

theorem registersFirst (h : Inv st) : RegistersFirst st := by
  intro x s hx hclient mf rest hwire
  cases h.inTurn x s hx hclient with
  | waiting hnil _ _ _ =>
      rw [hnil] at hwire
      cases hwire
  | registered rest' heq =>
      rw [heq] at hwire
      cases hwire
      exact ⟨rfl, registerFrame_cmd⟩

end Inv

/-- **The registration is the first frame** of every outbound session, in every state reached by a run whose
    events all come in time. -/
theorem registers_first (connectCount : Int) (es : List Event) (st : Wiring)
    (htimely : Run.Meets (step connectCount) Timely start es)
    (hrun : Run.run (step connectCount) start es = some st) : RegistersFirst st :=
  (Run.run_meets (step connectCount) Inv.start (fun _ _ _ h ht hs => h.step ht hs) htimely hrun).registersFirst

/-- A worker that writes on a session that nothing was written on: its frame goes first. -/
theorem early_dispatch_goes_first {connectCount : Int} {st st' : Wiring} {i : Nat} {x : SessPtr}
    {mf : MessageFormat} {s : Session} (hi : st.found[i]? = some (x, mf))
    (hx : st.world.sessions[x]? = some s) (hfresh : s.write = .fresh) (hwire : st.wire x = [])
    (hs : step connectCount st (.dispatch i) = some st') : st'.wire x = [mf] := by
  simp only [step, hi, write, hx, hfresh] at hs
  cases hs
  show Function.update st.wire x _ x = [mf]
  rw [Function.update_self, hwire]
  rfl

/-! ### A worker behind the registration, and one in front of it -/

/-- The id of the server both are about. -/
def server : Bytes := ascii "server:10.0.0.1:9000"

/-- The connection of its first slot. -/
def slotUp : BringUp := .connectFixId false server (slotId server 0)

/-- What a worker wants to send there. -/
def request : MessageFormat := MessageFormat.new.framed ⟨0, 0, 200⟩ []

/-- The registration is posted and written; then a worker sends its request. -/
def dispatchedInTurn : List Event :=
  [.build slotUp (ascii "10.0.0.1") 9000, .registe 0, .runPosted 0, .look 0 (.fixToServer (slotId server 0) request),
    .dispatch 0, .written 0 0 false]

theorem registers_first_in_turn :
    ∃ st, Run.run (step 1) start dispatchedInTurn = some st ∧ RegistersFirst st := by
  refine ⟨_, rfl, registers_first 1 dispatchedInTurn _ ?_ rfl⟩
  refine (Run.meets_cons _ rfl).mpr ⟨trivial, (Run.meets_cons _ rfl).mpr ⟨trivial, (Run.meets_cons _ rfl).mpr
    ⟨trivial, (Run.meets_cons _ rfl).mpr ⟨trivial, (Run.meets_cons _ rfl).mpr ⟨?_, (Run.meets_cons _ rfl).mpr
    ⟨trivial, trivial⟩⟩⟩⟩⟩⟩
  intro x mf s hfound _ _
  cases hfound
  exact List.mem_cons_self

/-- A worker finds the session before `registe` is called. -/
def earlyDispatch : List Event :=
  [.build slotUp (ascii "10.0.0.1") 9000, .look 0 (.fixToServer (slotId server 0) request), .dispatch 0, .registe 0]

theorem earlyDispatch_first :
    ¬ ∀ (es : List Event) (st : Wiring), Run.run (step 1) start es = some st → RegistersFirst st := by
  intro h
  have hfirst := (h earlyDispatch _ rfl 0 _ rfl rfl request [] rfl).2
  exact absurd hfirst (by decide)

end Wiring

end BServer
