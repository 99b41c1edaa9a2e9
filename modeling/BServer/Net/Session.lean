import BServer.Registry.PeerHandleMap
import BServer.Net.WriteQueue
import BServer.Net.FrameParser

/-!
# `Net.Session` — a session from its constructor to `close`

`session_base` and its two subclasses, as one record with a kind. The virtual calls (`open`, `on_close`) are
case splits on the kind; the read and write halves are those of `Net.ReadLoop` and `Net.WriteQueue`. A session
reaches the two registries only through `doOpen` and `close`.

There are three ways to bring a session up (`BringUp`): the acceptor starts an accepted one, and
`peer_handle_client` connects one with or without a fixed slot id. Each ends in one of two situations, which
`BringUp.built_spec` states for all three: the session is open, at a frame boundary, and stamps its own id on
what it reads; or it was refused, is shut, and reads nothing.

With that, the two statements about streams lift from a bare read half to a started session:
`started_session_frames` (a concatenation of frames arrives frame by frame) and `started_session_refines`
(any stream whatever is read as the reference parser reads it, in bounds).
-/

namespace BServer

open Bytes

/-- The subclass of `session_base`. -/
inductive SessionKind where
  /-- `server_session`: accepted -/
  | server
  /-- `client_session`: connected by this process -/
  | client
deriving DecidableEq, Repr

/-- The two registry singletons. -/
structure Registries where
  /-- `__PEER_MAP` -/
  peerMap : PeerHandleMap
  /-- `__PEER_MAP_CLIENT` -/
  peerMapClient : PeerHandleMapForClient

def Registries.empty : Registries := ⟨.empty, .empty⟩

/-- `session_base`, `server_session`, `client_session`. `address` and `port` are what
    `socket().remote_endpoint()` answers; `shut` says that `socket_.shutdown` was called; `writing` are the
    writes the io layer has not finished. `is_auto_reconnect_` is false in every session that is built, and is
    left out with the branch it guards. -/
structure Session where
  kind       : SessionKind
  address    : Bytes
  port       : Nat
  id         : Bytes
  serverId   : Bytes
  fixConnect : Bool
  connected  : Bool
  shut       : Bool
  read       : ReadSide
  write      : WriteSide
  writing    : List AsyncWrite

namespace Session

/-- A constructed session. The content of `read_msg_` is arbitrary: nothing depends on it. -/
def new (kind : SessionKind) (address : Bytes) (port : Nat) (readMsg : MessageFormat) : Session :=
  ⟨kind, address, port, [], [], false, false, false, ⟨readMsg, none⟩, .fresh, []⟩

/-- `read_msg_.remote_id(id)`. -/
def stampRemoteId (s : Session) (id : Bytes) : Session :=
  { s with read := { s.read with readMsg := { s.read.readMsg with remoteId := id } } }

/-- `read_msg_.server_id(id)`. -/
def stampServerId (s : Session) (id : Bytes) : Session :=
  { s with read := { s.read with readMsg := { s.read.readMsg with serverId := id } } }

/-- `address().to_string() << ":" << port()`. -/
def endpoint (s : Session) : Bytes := s.address ++ colon :: decimal s.port

/-- `server_session::open`. -/
def openServer (x : SessPtr) (s : Session) (r : Registries) : Int × Session × Registries :=
  let id := ascii "client:" ++ s.endpoint
  let s := { s with id := id }.stampRemoteId id
  (0, s, { r with peerMap := (r.peerMap.set id (some x)).2 })

/-- `client_session::open`. -/
def openClient (connectCount : Int) (x : SessPtr) (s : Session) (r : Registries) :
    Int × Session × Registries :=
  if s.fixConnect then
    let out := r.peerMapClient.fixSet s.serverId s.id (some x)
    (out.1, s, { r with peerMapClient := out.2 })
  else
    let serverId := ascii "server:" ++ s.endpoint
    let out := r.peerMapClient.set connectCount serverId (some x)
    let s := { s with serverId := serverId, id := out.1 }
    let r := { r with peerMapClient := out.2 }
    if s.id.isEmpty then (-1, s, r)
    else (0, (s.stampRemoteId s.id).stampServerId s.serverId, r)

/-- The virtual `open`. -/
def doOpen (connectCount : Int) (x : SessPtr) (s : Session) (r : Registries) :
    Int × Session × Registries :=
  match s.kind with
  | .server => s.openServer x r
  | .client => s.openClient connectCount x r

/-- The virtual `on_close`. -/
def onClose (s : Session) (r : Registries) : Registries :=
  match s.kind with
  | .server => { r with peerMap := r.peerMap.erase s.id }
  | .client => { r with peerMapClient := r.peerMapClient.erase s.serverId s.id }

/-- `session_base::close`. -/
def close (s : Session) (r : Registries) : Session × Registries := ({ s with shut := true }, s.onClose r)

/-- `session_base::start`. -/
def start (connectCount : Int) (x : SessPtr) (s : Session) (r : Registries) : Session × Registries :=
  match s.doOpen connectCount x r with
  | (status, s, r) =>
      if status = -1 then s.close r
      else ({ s with connected := true, read := s.read.armHeader }, r)

/-- `session_base::handle_connect`: also its return value, which is `0` even when `open` refused. -/
def handleConnect (error : Bool) (connectCount : Int) (x : SessPtr) (s : Session) (r : Registries) :
    Int × Session × Registries :=
  if !error then (0, s.start connectCount x r) else (-1, s.close r)

/-- `client_session::handle_connect_fix_id`. -/
def handleConnectFixId (error : Bool) (serverId remoteId : Bytes) (connectCount : Int) (x : SessPtr)
    (s : Session) (r : Registries) : Int × Session × Registries :=
  let s := { s with fixConnect := true, id := remoteId, serverId := serverId }
  let s := (s.stampRemoteId s.id).stampServerId s.serverId
  s.handleConnect error connectCount x r

/-! ### What `open` does, by kind and slot -/

section Open

variable {connectCount : Int} {x : SessPtr} {s : Session} {r : Registries}

theorem doOpen_of_client (hk : s.kind = .client) :
    s.doOpen connectCount x r = s.openClient connectCount x r := by
  simp only [doOpen, hk]

theorem doOpen_server (hk : s.kind = .server) :
    s.doOpen connectCount x r
      = (0, { s with id := ascii "client:" ++ s.endpoint }.stampRemoteId (ascii "client:" ++ s.endpoint),
          { r with peerMap := (r.peerMap.set (ascii "client:" ++ s.endpoint) (some x)).2 }) := by
  show (match s.kind with
    | .server => s.openServer x r
    | .client => s.openClient connectCount x r) = _
  rw [openServer]
  split
  · rfl
  · next h => rw [hk] at h; cases h

/-- `open` turned a client session down: nothing is bound otherwise than before. -/
structure OpenRefused (s t : Session) (r r' : Registries) : Prop where
  kind : t.kind = s.kind
  read : t.read = s.read
  id   : s.fixConnect = true → t.id = s.id
  kept : ∀ k, r'.peerMapClient.fixGet k = r.peerMapClient.fixGet k

/-- `open` bound a client session under its id: the fixed one, or a slot of the server at the other end. -/
structure OpenBound (x : SessPtr) (s t : Session) (r r' : Registries) : Prop where
  kind  : t.kind = s.kind
  shut  : t.shut = s.shut
  id    : (s.fixConnect = true ∧ t = s) ∨ (s.fixConnect = false ∧ t.read.readMsg.remoteId = t.id ∧
    ∃ i, t.id = slotId (ascii "server:" ++ s.endpoint) i)
  bound : ∀ k, r'.peerMapClient.fixGet k = if k = t.id then some x else r.peerMapClient.fixGet k

/-- With a fixed slot, `open` asks `fix_set`. -/
theorem openClient_fix (hf : s.fixConnect = true) :
    (∃ t r', s.openClient connectCount x r = (-1, t, r') ∧ OpenRefused s t r r') ∨
    ∃ t r', s.openClient connectCount x r = (0, t, r') ∧ OpenBound x s t r r' := by
  rw [openClient, if_pos hf]
  by_cases hb : s.serverId = [] ∨ s.id = []
  · left
    rw [PeerHandleMapForClient.fixSet_refused hb]
    exact ⟨s, r, rfl, rfl, rfl, fun _ => rfl, fun _ => rfl⟩
  · right
    have hsid : s.serverId ≠ [] := fun h => hb (Or.inl h)
    have hid : s.id ≠ [] := fun h => hb (Or.inr h)
    have hget := PeerHandleMapForClient.fixGet_fixSet (m := r.peerMapClient) (p := some x) hsid hid
    rw [PeerHandleMapForClient.fixSet_eq hsid hid] at hget ⊢
    exact ⟨s, _, rfl, rfl, rfl, Or.inl ⟨hf, rfl⟩, hget⟩

/-- Without one, `open` asks `set` for a slot. -/
theorem openClient_set (hf : s.fixConnect = false) :
    (∃ t r', s.openClient connectCount x r = (-1, t, r') ∧ OpenRefused s t r r') ∨
    ∃ t r', s.openClient connectCount x r = (0, t, r') ∧ OpenBound x s t r r' := by
  rw [openClient, if_neg (by rw [hf]; decide)]
  dsimp only
  rcases PeerHandleMapForClient.set_cases r.peerMapClient connectCount (ascii "server:" ++ s.endpoint)
    (some x) with ⟨hempty, hget⟩ | ⟨i, hid, _, hget⟩
  · left
    rw [if_pos (List.isEmpty_iff.mpr hempty)]
    refine ⟨_, _, rfl, rfl, rfl, fun h => ?_, hget⟩
    rw [hf] at h
    cases h
  · right
    have hne : (r.peerMapClient.set connectCount (ascii "server:" ++ s.endpoint) (some x)).1 ≠ [] := by
      rw [hid]
      exact slotId_ne_nil _ _
    rw [if_neg (fun h => hne (List.isEmpty_iff.mp h))]
    refine ⟨_, _, rfl, rfl, rfl, Or.inr ⟨hf, rfl, i, hid⟩, fun k => ?_⟩
    rw [hget k]
    exact congrArg (fun id => if k = id then some x else r.peerMapClient.fixGet k) hid.symm

variable (connectCount x r) in
/-- **What `open` does to a client session.** -/
theorem doOpen_client (hk : s.kind = .client) :
    (∃ t r', s.doOpen connectCount x r = (-1, t, r') ∧ OpenRefused s t r r') ∨
    ∃ t r', s.doOpen connectCount x r = (0, t, r') ∧ OpenBound x s t r r' := by
  rw [doOpen_of_client hk]
  cases hf : s.fixConnect with
  | true => exact openClient_fix hf
  | false => exact openClient_set hf

theorem start_refused {t : Session} {r' : Registries} (h : s.doOpen connectCount x r = (-1, t, r')) :
    s.start connectCount x r = ({ t with shut := true }, t.onClose r') := by
  rw [start, h]
  rfl

theorem start_opened {t : Session} {r' : Registries} (h : s.doOpen connectCount x r = (0, t, r')) :
    s.start connectCount x r = ({ t with connected := true, read := t.read.armHeader }, r') := by
  rw [start, h]
  rfl

variable (connectCount x r) in
/-- **What `start` does to a client session**: it closes one that `open` refused, and lets another one read. -/
theorem start_client_cases (hk : s.kind = .client) :
    (∃ t r', OpenRefused s t r r' ∧ s.start connectCount x r = ({ t with shut := true }, t.onClose r')) ∨
    ∃ t r', OpenBound x s t r r' ∧
      s.start connectCount x r = ({ t with connected := true, read := t.read.armHeader }, r') := by
  rcases doOpen_client connectCount x r hk with ⟨t, r', ho, h⟩ | ⟨t, r', ho, h⟩
  · exact Or.inl ⟨t, r', h, start_refused ho⟩
  · exact Or.inr ⟨t, r', h, start_opened ho⟩

end Open

end Session

/-! ## Bringing a session up -/

/-- Who starts a session, and what it knows. -/
inductive BringUp where
  /-- `peer_handle_server::handle_accept` without error -/
  | accept
  /-- `peer_handle_client(io, endpoint)` -/
  | connect (error : Bool)
  /-- `peer_handle_client(io, endpoint, server_id, fix_id)` -/
  | connectFixId (error : Bool) (serverId remoteId : Bytes)
deriving DecidableEq

namespace BringUp

def kind : BringUp → SessionKind
  | accept => .server
  | connect _ => .client
  | connectFixId _ _ _ => .client

/-- What is done to the session `s`, which is the object `x`. -/
def run (up : BringUp) (connectCount : Int) (x : SessPtr) (s : Session) (r : Registries) :
    Session × Registries :=
  match up with
  | accept => s.start connectCount x r
  | connect error => (s.handleConnect error connectCount x r).2
  | connectFixId error serverId remoteId =>
      (s.handleConnectFixId error serverId remoteId connectCount x r).2

/-- A new session, and what is done to it. -/
def built (up : BringUp) (connectCount : Int) (x : SessPtr) (address : Bytes) (port : Nat)
    (readMsg : MessageFormat) (r : Registries) : Session × Registries :=
  up.run connectCount x (.new up.kind address port readMsg) r

end BringUp

namespace Session

/-- An open session waits for a header and stamps its own id on what it reads. -/
structure Opened (s : Session) : Prop where
  not_shut : s.shut = false
  boundary : AtBoundary s.id s.read

/-- A refused session was closed and reads nothing. -/
structure Refused (s : Session) : Prop where
  shut : s.shut = true
  idle : s.read.pending = none

/-- `start` on a session that was built and not yet started. A fixed slot id was stamped before. -/
theorem start_spec (connectCount : Int) (x : SessPtr) {s : Session} (r : Registries) (hs : s.shut = false)
    (hidle : s.read.pending = none) (hid : s.fixConnect = true → s.read.readMsg.remoteId = s.id) :
    (s.start connectCount x r).1.Opened ∨ (s.start connectCount x r).1.Refused := by
  cases hk : s.kind with
  | server =>
      left
      rw [start_opened (doOpen_server hk)]
      exact ⟨hs, rfl, rfl⟩
  | client =>
      rcases start_client_cases connectCount x r hk with ⟨t, r', h, heq⟩ | ⟨t, r', h, heq⟩
      · right
        rw [heq]
        exact ⟨rfl, h.read ▸ hidle⟩
      · left
        rw [heq]
        refine ⟨h.shut.trans hs, rfl, ?_⟩
        rcases h.id with ⟨hf, rfl⟩ | ⟨_, hstamp, _⟩
        · exact hid hf
        · exact hstamp

/-! ### What starting and closing do to the outbound registry -/

/-- `close` unbinds the session's own id, whoever is bound there. -/
theorem close_fixGet {s : Session} (hk : s.kind = .client) (r : Registries) (k : Bytes) :
    (s.close r).2.peerMapClient.fixGet k = if k = s.id then none else r.peerMapClient.fixGet k := by
  have hc : (s.close r).2.peerMapClient = r.peerMapClient.erase s.serverId s.id := by
    simp only [close, onClose, hk]
  rw [hc, PeerHandleMapForClient.fixGet_erase]

theorem close_server {s : Session} (hk : s.kind = .server) (r : Registries) :
    (s.close r).2.peerMapClient = r.peerMapClient := by
  simp only [close, onClose, hk]

/-- What is bound under an id once a client session was started, or refused. -/
def boundAfter (x : SessPtr) (s : Session) : Option SessPtr := if s.shut then none else some x

/-- The outbound registry after a client session was started: its id is bound to it, or unbound when the
    session was refused, and every other binding is kept. -/
theorem start_client (connectCount : Int) (x : SessPtr) {s : Session} (r : Registries)
    (hk : s.kind = .client) (hs : s.shut = false) (k : Bytes) :
    (s.start connectCount x r).2.peerMapClient.fixGet k
      = if k = (s.start connectCount x r).1.id then boundAfter x (s.start connectCount x r).1
        else r.peerMapClient.fixGet k := by
  rcases start_client_cases connectCount x r hk with ⟨t, r', h, heq⟩ | ⟨t, r', h, heq⟩
  · -- `start` closes a session that `open` refused
    rw [heq, ← h.kept k]
    exact close_fixGet (h.kind.trans hk) r' k
  · rw [heq, boundAfter]
    show r'.peerMapClient.fixGet k = if k = t.id then (if t.shut then none else some x) else _
    rw [h.shut, hs]
    exact h.bound k

/-- The id an outbound session is open under: the fixed one, or a slot of the server at the other end. -/
theorem start_client_id (connectCount : Int) (x : SessPtr) {s : Session} (r : Registries)
    (hk : s.kind = .client) (hopen : (s.start connectCount x r).1.shut = false) :
    (s.fixConnect = true ∧ (s.start connectCount x r).1.id = s.id) ∨
    ∃ i, (s.start connectCount x r).1.id = slotId (ascii "server:" ++ s.endpoint) i := by
  rcases start_client_cases connectCount x r hk with ⟨t, r', h, heq⟩ | ⟨t, r', h, heq⟩
  · rw [heq] at hopen
    cases hopen
  · rw [heq]
    rcases h.id with ⟨hf, rfl⟩ | ⟨_, _, i, hi⟩
    · exact Or.inl ⟨hf, rfl⟩
    · exact Or.inr ⟨i, hi⟩

/-- A fixed id stays, whether `open` took the session or not. -/
theorem start_fix_id (connectCount : Int) (x : SessPtr) {s : Session} (r : Registries)
    (hk : s.kind = .client) (hf : s.fixConnect = true) : (s.start connectCount x r).1.id = s.id := by
  rcases start_client_cases connectCount x r hk with ⟨t, r', h, heq⟩ | ⟨t, r', h, heq⟩
  · rw [heq]
    exact h.id hf
  · rw [heq]
    rcases h.id with ⟨_, rfl⟩ | ⟨hnot, _⟩
    · rfl
    · rw [hf] at hnot
      cases hnot

/-- With a fixed slot, `open` is one `fix_set`. -/
theorem doOpen_fix (connectCount : Int) (x : SessPtr) {s : Session} (r : Registries) (hk : s.kind = .client)
    (hf : s.fixConnect = true) :
    s.doOpen connectCount x r
      = ((r.peerMapClient.fixSet s.serverId s.id (some x)).1, s,
          { r with peerMapClient := (r.peerMapClient.fixSet s.serverId s.id (some x)).2 }) := by
  rw [doOpen_of_client hk, openClient, if_pos hf]

/-- What starting a session for a fixed slot does to the outbound registry. -/
theorem start_fix (connectCount : Int) (x : SessPtr) {s : Session} (r : Registries) (hk : s.kind = .client)
    (hf : s.fixConnect = true) (hs : s.serverId ≠ []) (hid : s.id ≠ []) :
    (s.start connectCount x r).2.peerMapClient = (r.peerMapClient.fixSet s.serverId s.id (some x)).2 := by
  have ho := doOpen_fix connectCount x r hk hf
  rw [PeerHandleMapForClient.fixSet_eq hs hid] at ho ⊢
  rw [start_opened ho]

/-- The registry asked for a slot, for the server at the other end. -/
def slotAsked (connectCount : Int) (x : SessPtr) (s : Session) (r : Registries) :
    Bytes × PeerHandleMapForClient :=
  r.peerMapClient.set connectCount (ascii "server:" ++ s.endpoint) (some x)

/-- Without a fixed slot, a session that is refused one goes by the empty id. -/
theorem doOpen_set_refused {connectCount : Int} {x : SessPtr} {s : Session} {r : Registries}
    (hk : s.kind = .client) (hf : s.fixConnect = false) (hempty : (slotAsked connectCount x s r).1 = []) :
    s.doOpen connectCount x r
      = (-1, { s with serverId := ascii "server:" ++ s.endpoint, id := [] },
          { r with peerMapClient := (slotAsked connectCount x s r).2 }) := by
  have hnot : ¬ s.fixConnect = true := by
    rw [hf]
    decide
  rw [doOpen_of_client hk, openClient, if_neg hnot, ← hempty]
  exact if_pos (List.isEmpty_iff.mpr hempty)

/-- And one that gets a slot goes by the id of that. -/
theorem doOpen_set_taken {connectCount : Int} {x : SessPtr} {s : Session} {r : Registries}
    (hk : s.kind = .client) (hf : s.fixConnect = false) (hne : (slotAsked connectCount x s r).1 ≠ []) :
    s.doOpen connectCount x r
      = (0, (({ s with serverId := ascii "server:" ++ s.endpoint,
                       id := (slotAsked connectCount x s r).1 } : Session).stampRemoteId
              (slotAsked connectCount x s r).1).stampServerId (ascii "server:" ++ s.endpoint),
          { r with peerMapClient := (slotAsked connectCount x s r).2 }) := by
  have hnot : ¬ s.fixConnect = true := by
    rw [hf]
    decide
  rw [doOpen_of_client hk, openClient, if_neg hnot]
  exact if_neg (fun h => hne (List.isEmpty_iff.mp h))

/-- And without one. -/
theorem start_set (connectCount : Int) (x : SessPtr) {s : Session} (r : Registries) (hk : s.kind = .client)
    (hf : s.fixConnect = false) :
    let serverId := ascii "server:" ++ s.endpoint
    let out := r.peerMapClient.set connectCount serverId (some x)
    (s.start connectCount x r).2.peerMapClient = if out.1 = [] then out.2.erase serverId [] else out.2 := by
  intro serverId out
  by_cases hempty : out.1 = []
  · rw [start_refused (doOpen_set_refused hk hf hempty), if_pos hempty]
    simp only [onClose, hk]
    rfl
  · rw [start_opened (doOpen_set_taken hk hf hempty), if_neg hempty]
    rfl

/-- The id it ends up with is the empty one, or that of a slot that held no session. -/
theorem start_set_free (connectCount : Int) (x : SessPtr) {s : Session} (r : Registries)
    (hk : s.kind = .client) (hf : s.fixConnect = false) (hnil : r.peerMapClient.fixGet [] = none) :
    r.peerMapClient.fixGet (s.start connectCount x r).1.id = none := by
  by_cases hempty : (slotAsked connectCount x s r).1 = []
  · rw [start_refused (doOpen_set_refused hk hf hempty)]
    exact hnil
  · rw [start_opened (doOpen_set_taken hk hf hempty)]
    show r.peerMapClient.fixGet (slotAsked connectCount x s r).1 = none
    rcases PeerHandleMapForClient.set_cases r.peerMapClient connectCount (ascii "server:" ++ s.endpoint)
      (some x) with ⟨hrefused, _⟩ | ⟨i, hid, hfree, _⟩
    · exact absurd hrefused hempty
    · rw [slotAsked, hid]
      exact hfree

/-- Starting never changes what kind of session it is. -/
theorem start_kind (connectCount : Int) (x : SessPtr) (s : Session) (r : Registries) :
    (s.start connectCount x r).1.kind = s.kind := by
  cases hk : s.kind with
  | server =>
      rw [start_opened (doOpen_server hk)]
      exact hk
  | client =>
      rcases start_client_cases connectCount x r hk with ⟨t, r', h, heq⟩ | ⟨t, r', h, heq⟩
      · rw [heq]
        exact h.kind.trans hk
      · rw [heq]
        exact h.kind.trans hk

/-- Nor does it write. -/
theorem start_writes (connectCount : Int) (x : SessPtr) (s : Session) (r : Registries) :
    (s.start connectCount x r).1.write = s.write ∧ (s.start connectCount x r).1.writing = s.writing := by
  have hopen : (s.doOpen connectCount x r).2.1.write = s.write ∧
      (s.doOpen connectCount x r).2.1.writing = s.writing := by
    unfold doOpen
    split
    · exact ⟨rfl, rfl⟩
    · unfold openClient
      split
      · exact ⟨rfl, rfl⟩
      · dsimp only
        split
        · exact ⟨rfl, rfl⟩
        · exact ⟨rfl, rfl⟩
  unfold start
  split
  next status t r' ho =>
    rw [ho] at hopen
    split
    · exact hopen
    · exact hopen

/-- An accepted session is open under the id of its peer, and the outbound registry is not involved. -/
theorem start_server (connectCount : Int) (x : SessPtr) {s : Session} (r : Registries)
    (hk : s.kind = .server) :
    (s.start connectCount x r).1.id = ascii "client:" ++ s.endpoint ∧
    (s.start connectCount x r).1.shut = s.shut ∧
    (s.start connectCount x r).2.peerMapClient = r.peerMapClient := by
  rw [start_opened (doOpen_server hk)]
  exact ⟨rfl, rfl, rfl⟩

/-! ### What they do to the inbound one -/

theorem close_get {s : Session} (hk : s.kind = .server) (r : Registries) (k : Bytes) :
    (s.close r).2.peerMap.get k = if k = s.id then none else r.peerMap.get k := by
  have hc : (s.close r).2.peerMap = r.peerMap.erase s.id := by
    simp only [close, onClose, hk]
  rw [hc, PeerHandleMap.get_erase]

theorem close_client {s : Session} (hk : s.kind = .client) (r : Registries) :
    (s.close r).2.peerMap = r.peerMap := by
  simp only [close, onClose, hk]

theorem openClient_peerMap (connectCount : Int) (x : SessPtr) (s : Session) (r : Registries) :
    (s.openClient connectCount x r).2.2.peerMap = r.peerMap := by
  unfold openClient
  split
  · rfl
  · dsimp only
    split
    · rfl
    · rfl

/-- A client session leaves the inbound registry alone, refused or not. -/
theorem start_client_inbound (connectCount : Int) (x : SessPtr) {s : Session} (r : Registries)
    (hk : s.kind = .client) : (s.start connectCount x r).2.peerMap = r.peerMap := by
  have hmap := openClient_peerMap connectCount x s r
  rw [← doOpen_of_client hk] at hmap
  rcases doOpen_client connectCount x r hk with ⟨t, r', ho, h⟩ | ⟨t, r', ho, h⟩
  · rw [ho] at hmap
    rw [start_refused ho]
    exact (close_client (h.kind.trans hk) r').trans hmap
  · rw [ho] at hmap
    rw [start_opened ho]
    exact hmap

/-- An accepted session is bound under its id, and under nothing else. -/
theorem start_server_inbound (connectCount : Int) (x : SessPtr) {s : Session} (r : Registries)
    (hk : s.kind = .server) (k : Bytes) :
    (s.start connectCount x r).2.peerMap.get k
      = if k = (s.start connectCount x r).1.id then some x else r.peerMap.get k := by
  rw [start_opened (doOpen_server hk)]
  exact PeerHandleMap.get_set _ _ _ _

end Session

namespace BringUp

/-- A session on its way up: nothing was read or written, and a fixed slot id is stamped. -/
structure Prepared (up : BringUp) (address : Bytes) (port : Nat) (s : Session) : Prop where
  kind     : s.kind = up.kind
  shut     : s.shut = false
  idle     : s.read.pending = none
  write    : s.write = .fresh
  writing  : s.writing = []
  endpoint : s.endpoint = address ++ colon :: decimal port
  fixed    : s.fixConnect = true →
    s.read.readMsg.remoteId = s.id ∧ ∃ error serverId, up = .connectFixId error serverId s.id

/-- **What bringing up comes to.** A prepared session is started, or closed because its connection failed. -/
theorem built_cases (up : BringUp) (connectCount : Int) (x : SessPtr) (address : Bytes) (port : Nat)
    (readMsg : MessageFormat) (r : Registries) :
    ∃ s, Prepared up address port s ∧
      (up.built connectCount x address port readMsg r = s.start connectCount x r ∨
        up.kind = .client ∧ up.built connectCount x address port readMsg r = s.close r) := by
  cases up with
  | accept =>
      exact ⟨.new .server address port readMsg, ⟨rfl, rfl, rfl, rfl, rfl, rfl, fun h => by cases h⟩, Or.inl rfl⟩
  | connect error =>
      refine ⟨.new .client address port readMsg, ⟨rfl, rfl, rfl, rfl, rfl, rfl, fun h => by cases h⟩, ?_⟩
      cases error with
      | true => exact Or.inr ⟨rfl, rfl⟩
      | false => exact Or.inl rfl
  | connectFixId error serverId remoteId =>
      let s : Session := { Session.new .client address port readMsg with
        fixConnect := true, id := remoteId, serverId := serverId }
      refine ⟨(s.stampRemoteId remoteId).stampServerId serverId,
        ⟨rfl, rfl, rfl, rfl, rfl, rfl, fun _ => ⟨rfl, error, serverId, rfl⟩⟩, ?_⟩
      cases error with
      | true => exact Or.inr ⟨rfl, rfl⟩
      | false => exact Or.inl rfl

end BringUp

/-- **Bringing up.** Every way of starting a freshly built session, whatever its buffers hold, leaves it open
    at a frame boundary, or refused. -/
theorem BringUp.built_spec (up : BringUp) (connectCount : Int) (x : SessPtr) (address : Bytes) (port : Nat)
    (readMsg : MessageFormat) (r : Registries) :
    (up.built connectCount x address port readMsg r).1.Opened ∨
    (up.built connectCount x address port readMsg r).1.Refused := by
  obtain ⟨s, hs, hup | ⟨_, hup⟩⟩ := up.built_cases connectCount x address port readMsg r
  · rw [hup]
    exact Session.start_spec connectCount x r hs.shut hs.idle (fun hf => (hs.fixed hf).1)
  · rw [hup]
    exact Or.inr ⟨rfl, hs.idle⟩

theorem BringUp.opened {up : BringUp} {connectCount : Int} {x : SessPtr} {address : Bytes} {port : Nat}
    {readMsg : MessageFormat} {r : Registries}
    (h : (up.built connectCount x address port readMsg r).1.shut = false) :
    (up.built connectCount x address port readMsg r).1.Opened := by
  rcases up.built_spec connectCount x address port readMsg r with ho | hr
  · exact ho
  · rw [hr.shut] at h
    cases h

namespace BringUp

section Effects

variable (connectCount : Int) (x : SessPtr) (address : Bytes) (port : Nat) (readMsg : MessageFormat)
  (r : Registries)

theorem built_kind (up : BringUp) :
    (up.built connectCount x address port readMsg r).1.kind = up.kind := by
  obtain ⟨s, hs, hup | ⟨_, hup⟩⟩ := up.built_cases connectCount x address port readMsg r
  · rw [hup, Session.start_kind]
    exact hs.kind
  · rw [hup]
    exact hs.kind

/-- Nothing was written on a session that was just brought up. -/
theorem built_writes (up : BringUp) :
    (up.built connectCount x address port readMsg r).1.write = .fresh ∧
    (up.built connectCount x address port readMsg r).1.writing = [] := by
  obtain ⟨s, hs, hup | ⟨_, hup⟩⟩ := up.built_cases connectCount x address port readMsg r
  · obtain ⟨hwrite, hwriting⟩ := Session.start_writes connectCount x s r
    rw [hup, hwrite, hwriting]
    exact ⟨hs.write, hs.writing⟩
  · rw [hup]
    exact ⟨hs.write, hs.writing⟩

/-- An outbound attempt binds its own id to the new session, or unbinds it, and touches no other binding. -/
theorem built_client {up : BringUp} (hk : up.kind = .client) (k : Bytes) :
    (up.built connectCount x address port readMsg r).2.peerMapClient.fixGet k
      = if k = (up.built connectCount x address port readMsg r).1.id
        then Session.boundAfter x (up.built connectCount x address port readMsg r).1
        else r.peerMapClient.fixGet k := by
  obtain ⟨s, hs, hup | ⟨_, hup⟩⟩ := up.built_cases connectCount x address port readMsg r
  · rw [hup]
    exact Session.start_client connectCount x r (hs.kind.trans hk) hs.shut k
  · rw [hup]
    exact Session.close_fixGet (hs.kind.trans hk) r k

/-- The id of an open outbound session is its fixed slot, or a slot of the server at the other end. -/
theorem built_client_id {up : BringUp} (hk : up.kind = .client)
    (h : (up.built connectCount x address port readMsg r).1.shut = false) :
    (∃ error serverId, up = .connectFixId error serverId
      (up.built connectCount x address port readMsg r).1.id) ∨
    ∃ i, (up.built connectCount x address port readMsg r).1.id
      = slotId (ascii "server:" ++ (address ++ colon :: decimal port)) i := by
  obtain ⟨s, hs, hup | ⟨_, hup⟩⟩ := up.built_cases connectCount x address port readMsg r
  · rw [hup] at h ⊢
    rcases Session.start_client_id connectCount x r (hs.kind.trans hk) h with ⟨hf, hid⟩ | ⟨i, hi⟩
    · rw [hid]
      exact Or.inl (hs.fixed hf).2
    · rw [← hs.endpoint]
      exact Or.inr ⟨i, hi⟩
  · -- a session whose connection failed is shut
    rw [hup] at h
    cases h

/-- A session that is connected for a slot goes by it, however that ends. -/
theorem built_fix_id (error : Bool) (serverId remoteId : Bytes) :
    (built (.connectFixId error serverId remoteId) connectCount x address port readMsg r).1.id
      = remoteId := by
  cases error with
  | true => rfl
  | false => exact Session.start_fix_id connectCount x r rfl rfl

/-- Connecting for one slot leaves what is bound in the others alone. -/
theorem built_fix_other (error : Bool) (serverId : Bytes) {remoteId k : Bytes} (hk : k ≠ remoteId) :
    (built (.connectFixId error serverId remoteId) connectCount x address port readMsg r).2.peerMapClient.fixGet k
      = r.peerMapClient.fixGet k := by
  have hclient : (BringUp.connectFixId error serverId remoteId).kind = .client := rfl
  rw [built_client connectCount x address port readMsg r hclient, built_fix_id, if_neg hk]

/-- Connecting for a slot, if it succeeds, is one `fix_set`. -/
theorem built_fix_registry {serverId remoteId : Bytes} (hs : serverId ≠ []) (hid : remoteId ≠ []) :
    (built (.connectFixId false serverId remoteId) connectCount x address port readMsg r).2.peerMapClient
      = (r.peerMapClient.fixSet serverId remoteId (some x)).2 :=
  Session.start_fix connectCount x r rfl rfl hs hid

/-- Connecting without a slot, if it succeeds, is one `set`; a session that is refused one erases the empty
    id. -/
theorem built_set_registry :
    let serverId := ascii "server:" ++ (address ++ colon :: decimal port)
    let out := r.peerMapClient.set connectCount serverId (some x)
    (built (.connect false) connectCount x address port readMsg r).2.peerMapClient
      = if out.1 = [] then out.2.erase serverId [] else out.2 :=
  Session.start_set connectCount x r rfl rfl

/-- The id it ends up with held no session, where the empty id holds none. -/
theorem built_set_free (error : Bool) (hnil : r.peerMapClient.fixGet [] = none) :
    r.peerMapClient.fixGet (built (.connect error) connectCount x address port readMsg r).1.id = none := by
  cases error with
  | true => exact hnil
  | false => exact Session.start_set_free connectCount x r rfl rfl hnil

/-- An accepted session goes by the id of its peer. -/
theorem built_server {up : BringUp} (hk : up.kind = .server) :
    (up.built connectCount x address port readMsg r).1.id
      = ascii "client:" ++ (address ++ colon :: decimal port) ∧
    (up.built connectCount x address port readMsg r).2.peerMapClient = r.peerMapClient := by
  cases up with
  | accept =>
      obtain ⟨hid, _, hreg⟩ :=
        Session.start_server connectCount x (s := .new .server address port readMsg) r rfl
      exact ⟨hid, hreg⟩
  | connect error => cases hk
  | connectFixId error serverId remoteId => cases hk

/-- What an accepted connection does to the inbound registry. -/
theorem built_server_inbound {up : BringUp} (hk : up.kind = .server) (k : Bytes) :
    (up.built connectCount x address port readMsg r).1.shut = false ∧
    (up.built connectCount x address port readMsg r).2.peerMap.get k
      = if k = (up.built connectCount x address port readMsg r).1.id then some x else r.peerMap.get k := by
  cases up with
  | accept =>
      obtain ⟨_, hshut, _⟩ :=
        Session.start_server connectCount x (s := .new .server address port readMsg) r rfl
      exact ⟨hshut, Session.start_server_inbound connectCount x r rfl k⟩
  | connect error => cases hk
  | connectFixId error serverId remoteId => cases hk

/-- An outbound attempt leaves the inbound registry alone. -/
theorem built_client_inbound {up : BringUp} (hk : up.kind = .client) :
    (up.built connectCount x address port readMsg r).2.peerMap = r.peerMap := by
  obtain ⟨s, hs, hup | ⟨_, hup⟩⟩ := up.built_cases connectCount x address port readMsg r
  · rw [hup]
    exact Session.start_client_inbound connectCount x r (hs.kind.trans hk)
  · rw [hup]
    exact Session.close_client (hs.kind.trans hk) r

end Effects

end BringUp

/-! ## Streams through a started session -/

/-- A queued message is the sender's pair: same magic and command, the length field of its frame, the body
    in front of the buffer, and the id of the session it came through. -/
structure Received (id : Bytes) (hb : Head × Bytes) (m : MessageFormat) : Prop where
  magic    : m.magic = hb.1.magic
  cmd      : m.cmd = hb.1.cmd
  len      : m.len.toInt = 12 + hb.2.length
  length   : m.bodyLength = hb.2.length
  payload  : m.body.take m.bodyLength = hb.2
  inside   : m.bodyLength ≤ m.body.length
  remoteId : m.remoteId = id

/-- The length field of a frame within the limit, as a signed number. -/
theorem frameOf_len {hb : Head × Bytes} (hle : hb.2.length ≤ maxBodyLength) :
    (frameOf hb).1.len.toInt = 12 + hb.2.length := by
  have hn : hb.2.length ≤ 1048576 := hle
  show (BitVec.ofNat 32 (messageHeadLength + hb.2.length)).toInt = _
  rw [BitVec.toInt_eq_toNat_cond, BitVec.toNat_ofNat, messageHeadLength]
  split <;> omega

theorem Delivered.received {id : Bytes} {hb : Head × Bytes} {m : MessageFormat}
    (h : Delivered id (frameOf hb) m) (hle : hb.2.length ≤ maxBodyLength) : Received id hb m where
  magic := congrArg Head.magic h.head
  cmd := congrArg Head.cmd h.head
  len := by
    rw [show m.len = (frameOf hb).1.len from congrArg Head.len h.head]
    exact frameOf_len hle
  length := h.length
  payload := h.payload
  inside := h.inside
  remoteId := h.origin

theorem deliverable_frames (hbs : List (Head × Bytes)) :
    deliverable (hbs.map frameOf) = (hbs.filter (fun hb => hb.1.cmd ≠ 1)).map frameOf := by
  rw [deliverable, List.filter_map]
  rfl

/-- **Stream framing round trip.** Whatever `read_msg_` held before, however the session was brought up and
    however the stream is cut, a concatenation of frames within the limit is queued frame by frame, keepalives
    left out; nothing closes the session, which waits for a header with no byte left over. -/
theorem started_session_frames (up : BringUp) (connectCount : Int) (x : SessPtr) (address : Bytes)
    (port : Nat) (readMsg : MessageFormat) (r : Registries) (s : Session)
    (hs : s = (up.built connectCount x address port readMsg r).1) (hopen : s.shut = false)
    (hbs : List (Head × Bytes)) (hle : ∀ hb ∈ hbs, hb.2.length ≤ 1048576) (segs : List Bytes)
    (hsegs : segs.flatten = (hbs.map wireOf).flatten) :
    ∃ r' rest msgs, readLoop s.read segs = (r', rest, msgs.map ReadAct.push) ∧
      List.Forall₂ (Received s.id) (hbs.filter (fun hb => hb.1.cmd ≠ 1)) msgs ∧
      AtBoundary s.id r' ∧ rest.flatten = [] := by
  subst hs
  obtain ⟨r', rest, msgs, hloop, hall, hend, hrest⟩ :=
    readLoop_frames (BringUp.opened hopen).boundary hle hsegs
  refine ⟨r', rest, msgs, hloop, ?_, hend, hrest⟩
  rw [deliverable_frames, List.forall₂_map_left_iff] at hall
  refine (List.forall₂_iff_zip.mpr ⟨hall.length_eq, ?_⟩)
  intro hb m hmem
  have hin : hb ∈ hbs := (List.mem_filter.mp (List.of_mem_zip hmem).1).1
  exact ((List.forall₂_iff_zip.mp hall).2 hmem).received (hle hb hin)

/-- A keepalive and a two-byte body, cut inside the first header and inside the body. -/
theorem started_session_frames_cut :
    let s := (BringUp.built .accept 1 0 (ascii "10.0.0.7") 80 .new .empty).1
    let sent := ((⟨0, 0, 1⟩, []) : Head × Bytes)
    let kept := ((⟨5, 0, 200⟩, [8, 9]) : Head × Bytes)
    ∃ r' rest msgs, readLoop s.read
        [(wireOf sent ++ wireOf kept).take 3, ((wireOf sent ++ wireOf kept).drop 3).take 22,
          (wireOf sent ++ wireOf kept).drop 25] = (r', rest, msgs.map ReadAct.push) ∧
      List.Forall₂ (Received s.id) [kept] msgs ∧ AtBoundary s.id r' ∧ rest.flatten = [] :=
  started_session_frames .accept 1 0 _ _ _ _ _ rfl rfl [(⟨0, 0, 1⟩, []), (⟨5, 0, 200⟩, [8, 9])]
    (by decide) _ (by decide)

/-- **Any stream.** A started session reads whatever bytes arrive as the reference parser does: while the
    connection stays up it delivers the parser's frames and closes exactly on a bad length; when the peer
    closes it delivers the same frames and closes. Every read it starts on the way stays inside its buffer,
    and so does the payload of every message it queues. -/
theorem started_session_refines (up : BringUp) (connectCount : Int) (x : SessPtr) (address : Bytes)
    (port : Nat) (readMsg : MessageFormat) (r : Registries) (s : Session)
    (hs : s = (up.built connectCount x address port readMsg r).1) (hopen : s.shut = false)
    (segs : List Bytes) :
    (∃ msgs, (readLoop s.read segs).2.2
        = msgs.map ReadAct.push ++ closing (parseFrames segs.flatten).2 ∧
      (readToEnd s.read segs).2 = msgs.map ReadAct.push ++ [.close] ∧
      List.Forall₂ (Delivered s.id) (deliverable (parseFrames segs.flatten).1) msgs) ∧
    (∀ r' segs', Visits s.read segs r' segs' → r'.InRange) := by
  subst hs
  have ho := BringUp.opened hopen
  constructor
  · obtain ⟨r', rest, msgs, hloop, hall, hstop⟩ := readLoop_refines _ segs.flatten _ segs ho.boundary rfl
    refine ⟨msgs, by rw [hloop], ?_, hall⟩
    exact readToEnd_of_readLoop hloop hstop
  · intro r' segs' hv
    refine hv.inRange ?_
    intro p hp
    rw [ho.boundary.1] at hp
    cases hp
    exact Nat.le_of_eq (MessageFormat.head_size _).symm

/-- A frame without a body, then a header that announces `-5` bytes. -/
theorem started_session_refines_negative :
    let s := (BringUp.built .accept 1 0 (ascii "10.0.0.7") 80 .new .empty).1
    let bytes := wireOf (⟨5, 0, 200⟩, []) ++ be32 5 ++ be32 (-5) ++ be32 200
    (∃ msgs, (readLoop s.read [bytes]).2.2
        = msgs.map ReadAct.push ++ closing (parseFrames [bytes].flatten).2 ∧
      (readToEnd s.read [bytes]).2 = msgs.map ReadAct.push ++ [.close] ∧
      List.Forall₂ (Delivered s.id) (deliverable (parseFrames [bytes].flatten).1) msgs) ∧
    (∀ r' segs', Visits s.read [bytes] r' segs' → r'.InRange) :=
  started_session_refines .accept 1 0 _ _ _ _ _ rfl rfl _

end BServer
