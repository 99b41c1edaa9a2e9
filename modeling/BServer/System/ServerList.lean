import BServer.Base.Sweep
import BServer.Proto.Messages
import BServer.System.World

/-!
# `System.ServerList` — the three loops over the configured servers

`init_server_connection` at startup, `heart_task_thread::work` from then on, and `servlist_callback` whenever
the list changes all walk through the server map, and for each server through its `connect_count` slots. A visit
resolves the name of the server, which throws when it has no address, and connects. The heartbeat sends a
keepalive where a session is bound; both it and the callback connect only where none is.

Each visit is a function on the program and the list of what was done (`Links`), with `none` for an exception,
which leaves the loop for good. Where `resolve` throws nothing was changed by then (`Sweep.run`). Without a fixed
slot `open` names the server after the remote endpoint, and asking for that throws when the peer has reset the
connection meanwhile; then startup did connect, and has nothing to show for it (`Sweep.runThrowing`). The loops
differ in how they name the slot, and in what they make of an entry that is no `server:host:port`.
-/

namespace BServer

open Bytes

/-! ## The server map -/

/-- `std::map<int, std::string>`, in key order. -/
structure ServerMap where
  entries : List (Int × Bytes)
  sorted  : entries.Pairwise (fun a b => a.1 < b.1)

namespace ServerMap

def empty : ServerMap := ⟨[], .nil⟩

/-- The entries with one more, unless its key is taken. -/
def insertEntry (e : Int × Bytes) : List (Int × Bytes) → List (Int × Bytes)
  | []      => [e]
  | a :: as =>
      if e.1 < a.1 then e :: a :: as
      else if a.1 < e.1 then a :: insertEntry e as
      else a :: as

theorem mem_insertEntry {e b : Int × Bytes} {as : List (Int × Bytes)} (h : b ∈ insertEntry e as) :
    b = e ∨ b ∈ as := by
  induction as with
  | nil => exact Or.inl (List.mem_singleton.mp h)
  | cons a as ih =>
      unfold insertEntry at h
      split at h
      · exact List.mem_cons.mp h
      · split at h
        · rcases List.mem_cons.mp h with rfl | h
          · exact Or.inr List.mem_cons_self
          · exact (ih h).imp_right (List.mem_cons_of_mem a)
        · exact Or.inr h

theorem sorted_insertEntry {e : Int × Bytes} {as : List (Int × Bytes)}
    (h : as.Pairwise (fun a b => a.1 < b.1)) : (insertEntry e as).Pairwise (fun a b => a.1 < b.1) := by
  induction as with
  | nil => exact List.pairwise_singleton _ _
  | cons a as ih =>
      obtain ⟨hhead, htail⟩ := List.pairwise_cons.mp h
      unfold insertEntry
      split
      · next hlt =>
          refine List.pairwise_cons.mpr ⟨fun b hb => ?_, h⟩
          rcases List.mem_cons.mp hb with rfl | hb
          · exact hlt
          · exact Int.lt_trans hlt (hhead b hb)
      · split
        · next hgt =>
            refine List.pairwise_cons.mpr ⟨fun b hb => ?_, ih htail⟩
            rcases mem_insertEntry hb with rfl | hb
            · exact hgt
            · exact hhead b hb
        · exact h

/-- `insert(std::make_pair(k, v))`. -/
def insert (m : ServerMap) (k : Int) (v : Bytes) : ServerMap :=
  ⟨insertEntry (k, v) m.entries, sorted_insertEntry m.sorted⟩

/-- The values in key order, as the loops meet them. -/
def servers (m : ServerMap) : List Bytes := m.entries.map Prod.snd

/-- What the two nested loops visit, in order: each server with each slot number. -/
def visits (m : ServerMap) (connectCount : Int) : List (Bytes × Nat) :=
  m.servers.flatMap (fun s => (List.range connectCount.toNat).map (fun i => (s, i)))

theorem mem_visits {m : ServerMap} {connectCount : Int} {s : Bytes} {i : Nat} :
    (s, i) ∈ m.visits connectCount ↔ s ∈ m.servers ∧ i < connectCount.toNat := by
  simp [visits]

end ServerMap

/-- An entry of the list the registry of servers answers with. -/
structure ServCfg where
  id     : Int
  ipaddr : Bytes
  /-- the port, as it is printed -/
  port   : Bytes

/-- The server map after a refresh; of two entries with one id the first is kept. -/
def ServerMap.refreshed (servCfgs : List ServCfg) : ServerMap :=
  servCfgs.foldl (fun m c => m.insert c.id (ascii "server:" ++ c.ipaddr ++ colon :: c.port)) .empty

/-! ## Connecting -/

/-- The network as one pass of a loop meets it. -/
structure Network where
  /-- `resolve` returns, for a host and a service, instead of throwing -/
  resolves : Bytes → Bytes → Bool
  /-- how the connection of a session to what a name resolved to ends: the error, and the remote endpoint -/
  connect  : Bytes → Bytes → SessPtr → Bool × Bytes × Nat
  /-- the peer of a session that connected has reset the connection before it is asked for its remote endpoint, so
      that `remote_endpoint()` throws -/
  resets   : Bytes → Bytes → SessPtr → Bool

/-- What `handle_connect` or `handle_connect_fix_id` returns for a session, which `peer_handle_client` keeps in
    `conected_`. -/
def BringUp.conected (up : BringUp) (connectCount : Int) (x : SessPtr) (s : Session) (r : Registries) : Int :=
  match up with
  | accept => 0
  | connect error => (s.handleConnect error connectCount x r).1
  | connectFixId error serverId remoteId =>
      (s.handleConnectFixId error serverId remoteId connectCount x r).1

/-- The body of the registration. -/
def registerBody : Bytes := SvRegRequest.codec.serialize { serviceType := some 600 }

/-- The frame of the registration. -/
def registerFrame : MessageFormat :=
  MessageFormat.new.framed ⟨0, BitVec.ofNat 32 (messageHeadLength + registerBody.length), 300⟩ registerBody

/-- `peer_handle_client::registe`: what it posts. -/
def registe (conected : Int) : List MessageFormat := if conected ≠ 0 then [] else [registerFrame]

/-- The keepalive of the heartbeat. -/
def heartFrame : MessageFormat := MessageFormat.new.framed ⟨0, 0, 0⟩ []

/-- What a loop did. -/
inductive LinkAct where
  /-- a frame was posted to the session found in a slot of a server -/
  | beat (server : Bytes) (i : Nat) (x : SessPtr) (mf : MessageFormat)
  /-- a `peer_handle_client` connected, or tried to, for a slot of a server -/
  | attempt (server : Bytes) (i : Nat) (x : SessPtr)
  /-- its registration was posted -/
  | register (x : SessPtr) (mf : MessageFormat)

/-- The program, and what a loop did to it so far. -/
structure Links where
  world : World
  acts  : List LinkAct

namespace Links

/-- The session bound in slot `i` of a server. -/
def bound (l : Links) (server : Bytes) (i : Nat) : Option SessPtr :=
  l.world.registries.peerMapClient.fixGet (slotId server i)

/-- Post a keepalive. -/
def beat (l : Links) (server : Bytes) (i : Nat) (x : SessPtr) : Links :=
  { l with acts := l.acts ++ [.beat server i x heartFrame] }

/-- Build a `peer_handle_client` and call `registe`. -/
def connect (connectCount : Int) (l : Links) (server : Bytes) (i : Nat) (up : BringUp) (address : Bytes)
    (port : Nat) : Links :=
  let x := l.world.sessions.length
  let conected := up.conected connectCount x (.new up.kind address port .new) l.world.registries
  { world := l.world.bringUp connectCount up address port
    acts := l.acts ++ .attempt server i x :: (registe conected).map (.register x) }

end Links

/-! ## Visits -/

/-- What splitting an entry of the server map at its separators yields. -/
inductive Entry where
  /-- exactly three parts -/
  | named (a b c : Bytes)
  | longer
  | shorter
deriving DecidableEq

def entryOf (server : Bytes) : Entry :=
  match server.splitOn colon with
  | [a, b, c] => .named a b c
  | _ :: _ :: _ :: _ => .longer
  | _ => .shorter

section Visits

variable (net : Network) (connectCount : Int)

/-- Resolve, and connect for a fixed slot, as the heartbeat and the callback do. -/
def connectSlot (a b c : Bytes) (v : Bytes × Nat) (l : Links) : Option Links :=
  if net.resolves (cString b) (cString c) then
    let serverId := a ++ colon :: b ++ colon :: c
    let (error, address, port) := net.connect (cString b) (cString c) l.world.sessions.length
    some (l.connect connectCount v.1 v.2 (.connectFixId error serverId (slotId v.1 v.2)) address port)
  else none

/-- One turn of the loop of `heart_task_thread::work`. -/
def heartVisit (v : Bytes × Nat) (l : Links) : Option Links :=
  match l.bound v.1 v.2 with
  | some x => some (l.beat v.1 v.2 x)
  | none =>
      match entryOf v.1 with
      | .named a b c => connectSlot net connectCount a b c v l
      | _ => some l

/-- One turn of the loop of `init_server_connection`. The message about an entry of another form reads its
    second and third part; with fewer than three nothing is known of what follows. -/
def initVisit (v : Bytes × Nat) (l : Links) : Option Links :=
  match entryOf v.1 with
  | .named _ b c =>
      if net.resolves (cString b) (cString c) then
        let (error, address, port) := net.connect (cString b) (cString c) l.world.sessions.length
        -- `client_session::open` calls `remote_endpoint()` on a session that connected
        if !error && net.resets (cString b) (cString c) l.world.sessions.length then none
        else some (l.connect connectCount v.1 v.2 (.connect error) address port)
      else none
  | .longer => some l
  | .shorter => none

/-- What such a turn did before it threw. An exception of `open` destroys the session, which is in no registry. -/
def initThrown (v : Bytes × Nat) (l : Links) : Links :=
  match entryOf v.1 with
  | .named _ b c =>
      if net.resolves (cString b) (cString c) then
        { l with acts := l.acts ++ [.attempt v.1 v.2 l.world.sessions.length] }
      else l
  | _ => l

/-- One turn of the loop of `servlist_callback`, with the same message. -/
def callbackVisit (v : Bytes × Nat) (l : Links) : Option Links :=
  match l.bound v.1 v.2 with
  | some _ => some l
  | none =>
      match entryOf v.1 with
      | .named a b c => connectSlot net connectCount a b c v l
      | .longer => some l
      | .shorter => none

/-! ## Loops -/

/-- One iteration of `heart_task_thread::work`, on its copy of the server map. -/
def heartWork (m : ServerMap) (l : Links) : Links :=
  Sweep.run (heartVisit net connectCount) (m.visits connectCount) l

/-- `init_server_connection`. -/
def initServerConnection (m : ServerMap) (l : Links) : Links :=
  Sweep.runThrowing (initVisit net connectCount) (initThrown net) (m.visits connectCount) l

/-- `servlist_callback`, from the list it was called back for: the server map it leaves, and what its loop
    did. An empty list changes nothing. -/
def servlistCallback (servCfgs : List ServCfg) (m : ServerMap) (l : Links) : ServerMap × Links :=
  if servCfgs.isEmpty then (m, l)
  else
    let m := ServerMap.refreshed servCfgs
    (m, Sweep.run (callbackVisit net connectCount) (m.visits connectCount) l)

end Visits

end BServer
