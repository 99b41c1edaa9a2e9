import BServer.System.World
import BServer.Task.Responser

/-!
# `System.LiveBindings` — no closed session stays registered

A session erases its own id when it closes, and nothing else. That clears every trace of it because of where it
can be bound at all: `server_session::open`, both branches of `set` and `fix_set` bind a session under exactly
the id it carries from then on. `Live` ties each binding to its session that way, and every way of bringing a
session up and every event keeps it.

The fixed id a session is connected under may be any: nothing here uses that it belongs to a configured server
(`Reached`).
-/

namespace BServer

open Bytes

namespace World

/-- **The invariant.** Whatever is bound is a session of the right kind, under its own id, and not closed. -/
structure Live (w : World) : Prop where
  inbound  : ∀ k x, w.registries.peerMap.get k = some x →
    ∃ s : Session, w.sessions[x]? = some s ∧ s.kind = .server ∧ s.id = k ∧ s.shut = false
  outbound : ∀ k x, w.registries.peerMapClient.fixGet k = some x →
    ∃ s : Session, w.sessions[x]? = some s ∧ s.kind = .client ∧ s.id = k ∧ s.shut = false

theorem live_start : Live start where
  inbound := fun _ _ h => by cases h
  outbound := fun _ _ h => by cases h

/-- A session that goes on keeps what its binding says about it. -/
theorem Live.advance {w : World} (h : Live w) {x : SessPtr} {s s' : Session} {msgs : List MessageFormat}
    (hx : w.sessions[x]? = some s) (ha : Advances s s' msgs) : Live (w.advance x s' msgs) where
  inbound := by
    intro k y hy
    obtain ⟨t, ht, hkind, hid, hopen⟩ := h.inbound k y hy
    obtain ⟨t', ht', he⟩ := exists_getElem?_set (t := s') hx ht
    refine ⟨t', ht', ?_⟩
    rcases he with rfl | ⟨rfl, rfl⟩
    · exact ⟨hkind, hid, hopen⟩
    · exact ⟨ha.kind.trans hkind, ha.id.trans hid, ha.shut.trans hopen⟩
  outbound := by
    intro k y hy
    obtain ⟨t, ht, hkind, hid, hopen⟩ := h.outbound k y hy
    obtain ⟨t', ht', he⟩ := exists_getElem?_set (t := s') hx ht
    refine ⟨t', ht', ?_⟩
    rcases he with rfl | ⟨rfl, rfl⟩
    · exact ⟨hkind, hid, hopen⟩
    · exact ⟨ha.kind.trans hkind, ha.id.trans hid, ha.shut.trans hopen⟩

/-- Closing a session that is not bound under `k` leaves the session bound there as it is. -/
theorem getElem?_close_ne {w : World} {x y : SessPtr} {s t : Session} (hx : w.sessions[x]? = some s)
    (hy : w.sessions[y]? = some t) (hne : t.kind = s.kind → t.id ≠ s.id) :
    (w.close x).sessions[y]? = some t := by
  have hxy : x ≠ y := by
    rintro rfl
    rw [hx] at hy
    cases hy
    exact hne rfl rfl
  rw [close_eq hx]
  exact (List.getElem?_set_ne hxy).trans hy

/-- **A close clears every trace.** The session is bound under its own id if anywhere, and that is erased. -/
theorem Live.close {w : World} (h : Live w) {x : SessPtr} {s : Session} (hx : w.sessions[x]? = some s) :
    Live (w.close x) := by
  have hreg : (w.close x).registries = (s.close w.registries).2 := by
    rw [close_eq hx]
    rfl
  constructor
  case inbound =>
    intro k y hy
    rw [hreg] at hy
    rcases kind_cases s with hk | hk
    · rw [Session.close_get hk] at hy
      by_cases hks : k = s.id
      · rw [if_pos hks] at hy
        cases hy
      · rw [if_neg hks] at hy
        obtain ⟨t, ht, hkind, hid, hopen⟩ := h.inbound k y hy
        exact ⟨t, getElem?_close_ne hx ht (fun _ he => hks (hid.symm.trans he)), hkind, hid, hopen⟩
    · rw [Session.close_client hk] at hy
      obtain ⟨t, ht, hkind, hid, hopen⟩ := h.inbound k y hy
      refine ⟨t, getElem?_close_ne hx ht (fun he => ?_), hkind, hid, hopen⟩
      rw [hkind, hk] at he
      cases he
  case outbound =>
    intro k y hy
    rw [hreg] at hy
    rcases kind_cases s with hk | hk
    · rw [Session.close_server hk] at hy
      obtain ⟨t, ht, hkind, hid, hopen⟩ := h.outbound k y hy
      refine ⟨t, getElem?_close_ne hx ht (fun he => ?_), hkind, hid, hopen⟩
      rw [hkind, hk] at he
      cases he
    · rw [Session.close_fixGet hk] at hy
      by_cases hks : k = s.id
      · rw [if_pos hks] at hy
        cases hy
      · rw [if_neg hks] at hy
        obtain ⟨t, ht, hkind, hid, hopen⟩ := h.outbound k y hy
        exact ⟨t, getElem?_close_ne hx ht (fun _ he => hks (hid.symm.trans he)), hkind, hid, hopen⟩

/-- **A new session is bound under its own id, or not at all.** It may replace the session bound there. -/
theorem Live.bringUp {w : World} (h : Live w) (connectCount : Int) (up : BringUp) (address : Bytes)
    (port : Nat) : Live (w.bringUp connectCount up address port) := by
  have hkind := BringUp.built_kind connectCount w.sessions.length address port .new w.registries up
  constructor
  case inbound =>
    intro k y hy
    change (up.built connectCount w.sessions.length address port .new w.registries).2.peerMap.get k
      = some y at hy
    cases hup : up.kind with
    | server =>
        obtain ⟨hshut, hget⟩ := BringUp.built_server_inbound connectCount w.sessions.length address port
          .new w.registries hup k
        rw [hget] at hy
        by_cases hk : k = (up.built connectCount w.sessions.length address port .new w.registries).1.id
        · rw [if_pos hk] at hy
          cases hy
          exact ⟨_, sessions_bringUp_last, hkind.trans hup, hk.symm, hshut⟩
        · rw [if_neg hk] at hy
          obtain ⟨t, ht, hrest⟩ := h.inbound k y hy
          exact ⟨t, sessions_bringUp_old ht, hrest⟩
    | client =>
        rw [BringUp.built_client_inbound connectCount w.sessions.length address port .new w.registries hup]
          at hy
        obtain ⟨t, ht, hrest⟩ := h.inbound k y hy
        exact ⟨t, sessions_bringUp_old ht, hrest⟩
  case outbound =>
    intro k y hy
    change (up.built connectCount w.sessions.length address port .new w.registries).2.peerMapClient.fixGet k
      = some y at hy
    cases hup : up.kind with
    | server =>
        rw [(BringUp.built_server connectCount w.sessions.length address port .new w.registries hup).2]
          at hy
        obtain ⟨t, ht, hrest⟩ := h.outbound k y hy
        exact ⟨t, sessions_bringUp_old ht, hrest⟩
    | client =>
        rw [BringUp.built_client connectCount w.sessions.length address port .new w.registries hup] at hy
        by_cases hk : k = (up.built connectCount w.sessions.length address port .new w.registries).1.id
        · rw [if_pos hk, Session.boundAfter] at hy
          -- a refused session is not bound
          split at hy
          · cases hy
          · next hshut =>
              cases hy
              exact ⟨_, sessions_bringUp_last, hkind.trans hup, hk.symm, Bool.eq_false_iff.mpr hshut⟩
        · rw [if_neg hk] at hy
          obtain ⟨t, ht, hrest⟩ := h.outbound k y hy
          exact ⟨t, sessions_bringUp_old ht, hrest⟩

theorem Live.step {connectCount : Int} {w w' : World} {e : Event} (h : Live w)
    (hs : World.step connectCount w e = some w') : Live w' := by
  rcases step_cases hs with ⟨up, address, port, _, rfl⟩ | ⟨x, s, s', msgs, hx, ha, rfl | rfl⟩
  · exact h.bringUp connectCount up address port
  · exact h.advance hx ha
  · have hx' : (w.advance x s' msgs).sessions[x]? = some s' :=
      List.getElem?_set_self (List.getElem?_eq_some_iff.mp hx).1
    exact (h.advance hx ha).close hx'

/-! ## Every run -/

/-- The states reached by events, and by bringing sessions up with any fixed id whatever. -/
inductive Reached (connectCount : Int) : World → Prop where
  | start : Reached connectCount start
  | bringUp {w : World} (up : BringUp) (address : Bytes) (port : Nat) :
      Reached connectCount w → Reached connectCount (w.bringUp connectCount up address port)
  | event {w w' : World} (e : Event) :
      Reached connectCount w → World.step connectCount w e = some w' → Reached connectCount w'
  | close {w : World} (x : SessPtr) : Reached connectCount w → Reached connectCount (w.close x)

theorem Reached.live {connectCount : Int} {w : World} (h : Reached connectCount w) : Live w := by
  induction h with
  | start => exact live_start
  | bringUp up address port _ ih => exact ih.bringUp connectCount up address port
  | event e _ hs ih => exact ih.step hs
  | @close w x _ ih =>
      cases hx : w.sessions[x]? with
      | none =>
          rw [World.close, hx]
          exact ih
      | some s => exact ih.close hx

/-- What a dispatch writes on is bound in one of the registries. -/
theorem dispatch_bound {r : Registries} {rand : Nat} {d : Dispatch} {y : SessPtr} {mf : MessageFormat}
    (h : (y, mf) ∈ (r.dispatch rand d).1) :
    (∃ k, r.peerMap.get k = some y) ∨ ∃ k, r.peerMapClient.fixGet k = some y := by
  have hwrite : ∀ {sb : Option SessPtr} {m : MessageFormat}, (y, mf) ∈ Registries.writeTo sb m →
      sb = some y := by
    intro sb m hm
    cases sb with
    | none => cases hm
    | some z =>
        cases List.mem_singleton.mp hm
        rfl
  cases d with
  | toServer serverId m =>
      simp only [Registries.dispatch] at h
      split at h
      · right
        have hget := hwrite h
        by_cases hl : r.peerMapClient.listed serverId = []
        · rw [PeerHandleMapForClient.get_of_nil hl] at hget
          cases hget
        · obtain ⟨k, _, hk⟩ := PeerHandleMapForClient.get_of_ne_nil hl rand
          exact ⟨k, hk.symm.trans hget⟩
      · cases h
  | fixToServer serverId m =>
      simp only [Registries.dispatch] at h
      split at h
      · exact Or.inr ⟨serverId, hwrite h⟩
      · cases h
  | toClient serverId m =>
      simp only [Registries.dispatch] at h
      split at h
      · exact Or.inl ⟨serverId, hwrite h⟩
      · cases h

/-- **No closed session stays registered.** In every state reached, what is bound under any key of either
    registry is a session that was not closed, and so is every session a dispatch writes on. -/
theorem no_closed_session_registered (connectCount : Int) (w : World) (h : Reached connectCount w) :
    (∀ k x, w.registries.peerMap.map.find k = some (some x) ∨
        w.registries.peerMapClient.map.find k = some (some x) →
      ∃ s, w.sessions[x]? = some s ∧ s.shut = false) ∧
    ∀ (rand : Nat) (d : Dispatch) (y : SessPtr) (mf : MessageFormat),
      (y, mf) ∈ (w.registries.dispatch rand d).1 → ∃ s, w.sessions[y]? = some s ∧ s.shut = false := by
  have hlive := h.live
  have hin : ∀ k x, w.registries.peerMap.get k = some x → ∃ s, w.sessions[x]? = some s ∧ s.shut = false := by
    intro k x hk
    obtain ⟨s, hs, _, _, hopen⟩ := hlive.inbound k x hk
    exact ⟨s, hs, hopen⟩
  have hout : ∀ k x, w.registries.peerMapClient.fixGet k = some x →
      ∃ s, w.sessions[x]? = some s ∧ s.shut = false := by
    intro k x hk
    obtain ⟨s, hs, _, _, hopen⟩ := hlive.outbound k x hk
    exact ⟨s, hs, hopen⟩
  constructor
  · rintro k x (hk | hk)
    · exact hin k x (PeerHandleMap.get_eq_some.mpr hk)
    · exact hout k x (PeerHandleMapForClient.fixGet_eq_some.mpr hk)
  · intro rand d y mf hd
    rcases dispatch_bound hd with ⟨k, hk⟩ | ⟨k, hk⟩
    · exact hin k y hk
    · exact hout k y hk

/-- Two sessions connected one after the other under the same id, the first of which then closes. -/
theorem no_closed_session_registered_replaced :
    let up : BringUp := .connectFixId false (ascii "server:10.0.0.1:9000") (ascii "server:10.0.0.1:9000:0")
    let w := ((World.start.bringUp 1 up (ascii "10.0.0.1") 9000).bringUp 1 up (ascii "10.0.0.1") 9000).close 0
    (∀ k x, w.registries.peerMap.map.find k = some (some x) ∨
        w.registries.peerMapClient.map.find k = some (some x) →
      ∃ s, w.sessions[x]? = some s ∧ s.shut = false) ∧
    ∀ (rand : Nat) (d : Dispatch) (y : SessPtr) (mf : MessageFormat),
      (y, mf) ∈ (w.registries.dispatch rand d).1 → ∃ s, w.sessions[y]? = some s ∧ s.shut = false :=
  no_closed_session_registered 1 _ (.close 0 (.bringUp _ _ _ (.bringUp _ _ _ .start)))

end World

end BServer
