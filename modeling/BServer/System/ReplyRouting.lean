import BServer.System.World
import BServer.Task.Responser

/-!
# `System.ReplyRouting` — where the reply to a queued message goes

The queue is fed by sessions of both kinds, and a queued message carries the id of the session it was read on.
The responsers of the commands `200`, `7818` and `8000` answer through `fix_dispatch_to_server`, which looks
that id up among the outbound sessions only. The ids of the two registries have different shapes
(`World.Inv`), so for a message that came in on an accepted connection the lookup finds nothing: the reply
reaches its session exactly when the session is outbound (`reply_goes_back_iff`).
-/

namespace BServer

open Bytes

/-- The commands that are answered with a reply. -/
def Answered (cmd : CInt) : Prop := cmd = 200 ∨ cmd = 7818 ∨ cmd = 8000

/-- A command that is answered has a responser, and it replies to the fixed id under the next command. -/
theorem Answered.response {cmd : CInt} (h : Answered cmd) :
    ∃ rsp, pickResponser cmd = some rsp ∧ ∀ (id : Bytes) (hd : Head) (body : Bytes),
      rsp.response id hd body = [.fixToServer id (frame { hd with cmd := hd.cmd + 1 } body)] := by
  rcases h with rfl | rfl | rfl
  · exact ⟨.serverService, rfl, fun _ _ _ => rfl⟩
  · exact ⟨.groupService, rfl, fun _ _ _ => rfl⟩
  · exact ⟨.pythonService, rfl, fun _ _ _ => rfl⟩

namespace World

/-! ## Registered sessions -/

/-- The session is bound under its id in the registry of its kind. -/
def Registered (w : World) (x : SessPtr) (s : Session) : Prop :=
  match s.kind with
  | .server => w.registries.peerMap.get s.id = some x
  | .client => w.registries.peerMapClient.fixGet s.id = some x

/-- Whoever holds an id registered under it. -/
theorem registered_of_holder {k : Bytes} {x : SessPtr} (log : List SlotEvent) :
    holder k log = some x → SlotEvent.registered k x ∈ log := by
  induction log using List.reverseRecOn with
  | nil =>
      intro h
      cases h
  | append_singleton log e ih =>
      intro h
      rw [holder_snoc] at h
      cases e with
      | registered k' y =>
          by_cases hk : k = k'
          · rw [SlotEvent.apply, if_pos hk] at h
            cases h
            exact hk ▸ List.mem_append_right _ List.mem_cons_self
          · rw [SlotEvent.apply, if_neg hk] at h
            exact List.mem_append_left _ (ih h)
      | closed k' y =>
          by_cases hk : k = k'
          · rw [SlotEvent.apply, if_pos hk] at h
            cases h
          · rw [SlotEvent.apply, if_neg hk] at h
            exact List.mem_append_left _ (ih h)

/-- An id bound in the outbound registry is the name of a server. -/
theorem Inv.bound_named {w : World} (h : Inv w) {k : Bytes} {x : SessPtr}
    (hb : w.registries.peerMapClient.fixGet k = some x) : ∃ rest, k = ascii "server:" ++ rest :=
  h.named k x (registered_of_holder w.slotLog ((h.log k).symm.trans hb))

/-- The two kinds of session never share an id: no accepted session is known to the outbound registry. -/
theorem Inv.inbound_unbound {w : World} (h : Inv w) {x : SessPtr} {s : Session}
    (hx : w.sessions[x]? = some s) (hk : s.kind = .server) :
    w.registries.peerMapClient.fixGet s.id = none := by
  cases hb : w.registries.peerMapClient.fixGet s.id with
  | none => rfl
  | some y =>
      obtain ⟨rest, hserver⟩ := h.bound_named hb
      obtain ⟨rest', hclient⟩ := h.inbound x s hx hk
      rw [hclient] at hserver
      -- the first bytes are `c` and `s`
      have hbyte : some (99 : UInt8) = some 115 := congrArg List.head? hserver
      exact absurd hbyte (by decide)

/-! ## Replies -/

/-- Whatever body the worker calls `response` with, for a message read on session `x`, it writes one frame, on
    `x`, under the next command. -/
def ReplyGoesBack (w : World) (x : SessPtr) (m : MessageFormat) : Prop :=
  ∀ rsp, pickResponser m.cmd = some rsp → ∀ (rand : Nat → Nat) (body : Bytes),
    (w.registries.perform rand (rsp.response m.remoteId m.meetHead body)).1
      = [(x, frame { m.meetHead with cmd := m.cmd + 1 } body)]

/-- A reply goes back to a session when its id is bound to it among the outbound sessions. -/
theorem replyGoesBack_iff {w : World} {x : SessPtr} {m : MessageFormat} (hcmd : Answered m.cmd) :
    w.ReplyGoesBack x m ↔ m.remoteId ≠ [] ∧ w.registries.peerMapClient.fixGet m.remoteId = some x := by
  obtain ⟨rsp, hpick, hresponse⟩ := hcmd.response
  constructor
  · intro h
    have hwrites := h rsp hpick (fun _ => 0) []
    rw [hresponse, Registries.perform_fixToServer] at hwrites
    by_cases hid : m.remoteId = []
    · rw [if_pos hid] at hwrites
      cases hwrites
    · rw [if_neg hid] at hwrites
      exact ⟨hid, (Registries.writeTo_eq_singleton.mp hwrites).1⟩
  · rintro ⟨hid, hbound⟩ rsp' hpick' rand body
    rw [hpick] at hpick'
    cases hpick'
    rw [hresponse, Registries.perform_fixToServer, if_neg hid]
    exact Registries.writeTo_eq_singleton.mpr ⟨hbound, rfl⟩

/-- **Replies and session kinds.** In every reachable state, the reply to a message read on a session that is
    still registered goes back to it if and only if the session is outbound. -/
theorem reply_goes_back_iff (connectCount : Int) (es : List Event) (w : World)
    (hrun : Run.run (step connectCount) start es = some w) (x : SessPtr) (s : Session) (m : MessageFormat)
    (hx : w.sessions[x]? = some s) (hm : (x, m) ∈ w.pushed) (hcmd : Answered m.cmd)
    (hreg : w.Registered x s) : w.ReplyGoesBack x m ↔ s.kind = .client := by
  have hinv := inv_run hrun
  -- the queued message carries the id of its session
  have hid : m.remoteId = s.id := by
    obtain ⟨t, ht, hid⟩ := hinv.pushed x m hm
    rw [hx] at ht
    cases ht
    exact hid
  rw [replyGoesBack_iff hcmd, hid]
  rcases kind_cases s with hk | hk
  · rw [hinv.inbound_unbound hx hk]
    constructor
    · rintro ⟨_, h⟩
      cases h
    · intro h
      rw [hk] at h
      cases h
  · have hbound : w.registries.peerMapClient.fixGet s.id = some x := by
      rw [Registered, hk] at hreg
      exact hreg
    refine ⟨fun _ => hk, fun _ => ⟨?_, hbound⟩⟩
    obtain ⟨rest, hname⟩ := hinv.bound_named hbound
    rw [hname]
    exact List.cons_ne_nil _ _

/-! ### One request on each kind of session -/

/-- A request with an empty body. -/
def request : Bytes := MessageFormat.headBytes ⟨0, 12, 200⟩ 0

/-- A request that arrives on the session of a slot. -/
def outboundRequest : List Event :=
  [.connectSlot false (ascii "10.0.0.1:9000") 0 (ascii "10.0.0.1") 9000, .received 0 request]

theorem outbound_reply_goes_back : ∃ w m, Run.run (step 1) start outboundRequest = some w ∧
    w.pushed = [(0, m)] ∧ w.ReplyGoesBack 0 m :=
  ⟨_, _, rfl, rfl, (reply_goes_back_iff 1 outboundRequest _ rfl 0 _ _ rfl List.mem_cons_self
    (Or.inl (by decide)) rfl).mpr rfl⟩

/-- The same request on an accepted connection. -/
def inboundRequest : List Event := [.accept (ascii "10.0.0.2") 5000, .received 0 request]

/-- Every reply to a message of a session that is still registered goes back to it. -/
def RepliesGoBack (w : World) : Prop :=
  ∀ (x : SessPtr) (s : Session) (m : MessageFormat), w.sessions[x]? = some s → (x, m) ∈ w.pushed →
    Answered m.cmd → w.Registered x s → w.ReplyGoesBack x m

/-- The reply to a request on an accepted connection is not written there. -/
theorem inbound_reply_lost : ∃ w, Run.run (step 1) start inboundRequest = some w ∧ ¬ w.RepliesGoBack := by
  refine ⟨_, rfl, ?_⟩
  intro h
  have hback := h 0 _ _ rfl List.mem_cons_self (Or.inl (by decide)) rfl
  have hwrites := hback .serverService rfl (fun _ => 0) []
  exact absurd (congrArg List.length hwrites) (by decide)

end World

end BServer
