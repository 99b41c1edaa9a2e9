import BServer.System.ServerList

/-!
# `System.Connected` — what `conected_` says about the registry

`peer_handle_client` keeps what `handle_connect` returns in `conected_`, and `registe` posts the registration
when that is `0`. But `handle_connect` returns the error of the TCP connection alone. Whether the registry took
the session is found out below it, in `open`, and ends in `start`, which closes the session and returns nothing.
So `conected_` tells whether the session is bound except where a connection succeeds and the registry turns the
session down (`BringUp.TurnedDown`), and there it is `0` for a session that is closed already.
-/

namespace BServer

open Bytes

/-- The registry has no slot for the session, or is not told which one. -/
def BringUp.TurnedDown (up : BringUp) (connectCount : Int) (address : Bytes) (port : Nat) (r : Registries) :
    Prop :=
  match up with
  | accept => False
  | connect error =>
      error = false ∧
        connectCount ≤ r.peerMapClient.findMatched (ascii "server:" ++ (address ++ colon :: decimal port))
  | connectFixId error serverId remoteId => error = false ∧ (serverId = [] ∨ remoteId = [])

namespace Session

variable (connectCount : Int) (x : SessPtr) {s : Session} (r : Registries)

/-- A session without a fixed slot ends up closed exactly when it is refused one. -/
theorem shut_start_set (hk : s.kind = .client) (hf : s.fixConnect = false) (hs : s.shut = false) :
    (s.start connectCount x r).1.shut = true ↔
      connectCount ≤ r.peerMapClient.findMatched (ascii "server:" ++ s.endpoint) := by
  have hrefused : (slotAsked connectCount x s r).1 = [] ↔
      connectCount ≤ r.peerMapClient.findMatched (ascii "server:" ++ s.endpoint) :=
    PeerHandleMapForClient.set_eq_nil_iff
  by_cases hempty : (slotAsked connectCount x s r).1 = []
  · rw [start_refused (doOpen_set_refused hk hf hempty)]
    exact iff_of_true rfl (hrefused.mp hempty)
  · rw [start_opened (doOpen_set_taken hk hf hempty)]
    have hopen : ¬ s.shut = true := by simp [hs]
    exact iff_of_false hopen (fun hfull => hempty (hrefused.mpr hfull))

/-- One with a fixed slot, exactly when a part of its name is missing. -/
theorem shut_start_fix (hk : s.kind = .client) (hf : s.fixConnect = true) (hs : s.shut = false) :
    (s.start connectCount x r).1.shut = true ↔ s.serverId = [] ∨ s.id = [] := by
  have hopened := doOpen_fix connectCount x r hk hf
  by_cases hempty : s.serverId = [] ∨ s.id = []
  · rw [PeerHandleMapForClient.fixSet_refused hempty] at hopened
    rw [start_refused hopened]
    exact iff_of_true rfl hempty
  · obtain ⟨hsid, hid⟩ := not_or.mp hempty
    rw [PeerHandleMapForClient.fixSet_eq hsid hid] at hopened
    rw [start_opened hopened]
    have hopen : ¬ s.shut = true := by simp [hs]
    exact iff_of_false hopen hempty

end Session

namespace BringUp

variable (connectCount : Int) (x : SessPtr) (address : Bytes) (port : Nat) (readMsg : MessageFormat)
  (r : Registries)

/-- An outbound attempt ends closed where its connection fails, and where it is turned down. -/
theorem shut_built {up : BringUp} (hk : up.kind = .client) :
    (up.built connectCount x address port readMsg r).1.shut = true ↔
      up.conected connectCount x (.new up.kind address port readMsg) r ≠ 0 ∨
        up.TurnedDown connectCount address port r := by
  cases up with
  | accept => cases hk
  | connect error =>
      cases error with
      | true => exact iff_of_true rfl (Or.inl (show (-1 : Int) ≠ 0 by decide))
      | false =>
          have hstart := Session.shut_start_set connectCount x
            (s := .new .client address port readMsg) r rfl rfl rfl
          refine hstart.trans ?_
          constructor
          · intro hfull
            exact Or.inr ⟨rfl, hfull⟩
          · rintro (hfailed | ⟨_, hfull⟩)
            · exact absurd rfl hfailed
            · exact hfull
  | connectFixId error serverId remoteId =>
      cases error with
      | true => exact iff_of_true rfl (Or.inl (show (-1 : Int) ≠ 0 by decide))
      | false =>
          let s : Session := { Session.new .client address port readMsg with
            fixConnect := true, id := remoteId, serverId := serverId }
          have hstart := Session.shut_start_fix connectCount x
            (s := (s.stampRemoteId remoteId).stampServerId serverId) r rfl rfl rfl
          refine hstart.trans ?_
          constructor
          · intro hempty
            exact Or.inr ⟨rfl, hempty⟩
          · rintro (hfailed | ⟨_, hempty⟩)
            · exact absurd rfl hfailed
            · exact hempty

/-- An attempt that is turned down had its connection, and counts as connected. -/
theorem conected_of_turnedDown {up : BringUp} (h : up.TurnedDown connectCount address port r) :
    up.conected connectCount x (.new up.kind address port readMsg) r = 0 := by
  cases up with
  | accept => cases h
  | connect error =>
      obtain ⟨rfl, _⟩ := h
      rfl
  | connectFixId error serverId remoteId =>
      obtain ⟨rfl, _⟩ := h
      rfl

/-- **A client counts as connected exactly if it is registered, unless it was turned down.** For both
    constructors of `peer_handle_client`: `conected_` is `0` just when the new session is bound under its id,
    provided that no connection succeeds for which the registry has no slot. -/
theorem conected_iff_bound {up : BringUp} (hk : up.kind = .client) :
    let built := up.built connectCount x address port readMsg r
    (up.conected connectCount x (.new up.kind address port readMsg) r = 0 ↔
      built.2.peerMapClient.fixGet built.1.id = some x) ↔
    ¬ up.TurnedDown connectCount address port r := by
  intro built
  have hbound : built.2.peerMapClient.fixGet built.1.id = some x ↔ ¬ built.1.shut = true := by
    rw [built_client connectCount x address port readMsg r hk, if_pos rfl, Session.boundAfter]
    show (if built.1.shut then none else some x) = some x ↔ _
    cases built.1.shut with
    | true => simp
    | false => simp
  have hshut := shut_built connectCount x address port readMsg r hk
  rw [hbound, hshut, not_or, not_not]
  constructor
  · intro hiff hdown
    exact (hiff.mp (conected_of_turnedDown connectCount x address port readMsg r hdown)).2 hdown
  · intro hdown
    exact ⟨fun hconected => ⟨hconected, hdown⟩, And.left⟩

/-- One connection to a server is there already. -/
def oneConnected : Registries :=
  ⟨.empty, (PeerHandleMapForClient.empty.set 1 (ascii "server:10.0.0.1:80") (some 0)).2⟩

/-- With room for two, a second one is bound, and counts as connected. -/
theorem conected_iff_bound_second :
    let built := (connect false).built 2 1 (ascii "10.0.0.1") 80 .new oneConnected
    (connect false).conected 2 1 (.new .client (ascii "10.0.0.1") 80 .new) oneConnected = 0 ↔
      built.2.peerMapClient.fixGet built.1.id = some 1 := by
  have hroom : ¬ (connect false).TurnedDown 2 (ascii "10.0.0.1") 80 oneConnected := by
    rintro ⟨_, hfull⟩
    exact absurd hfull (by decide)
  exact (conected_iff_bound 2 1 (ascii "10.0.0.1") 80 .new oneConnected rfl).mpr hroom

/-- With room for one it is turned down, and counts as connected all the same. -/
theorem conected_turned_down :
    ¬ ∀ (up : BringUp) (connectCount : Int) (x : SessPtr) (address : Bytes) (port : Nat)
      (readMsg : MessageFormat) (r : Registries), up.kind = .client →
      let built := up.built connectCount x address port readMsg r
      (up.conected connectCount x (.new up.kind address port readMsg) r = 0 ↔
        built.2.peerMapClient.fixGet built.1.id = some x) := by
  intro h
  have hbound := (h (.connect false) 1 1 (ascii "10.0.0.1") 80 .new oneConnected rfl).mp rfl
  exact absurd hbound (by decide)

end BringUp

end BServer
