import BServer.System.ServerList

/-!
# `System.SlotIds` — ids that are joined in one place and taken apart in others

`client_session::open` names a server `server:address:port`, and `set` its slots `server:address:port:i`. The
one-argument `erase` finds the server of a slot again by splitting at each `:`, for which it expects four parts;
`on_close`, the heartbeat and the callback find address and port of a server the same way, in three. An address
with a `:` of its own has more parts, and every one of them turns it away: it is these, the IPv6 addresses, whose
ids do not parse back.
-/

namespace BServer

open Bytes

/-- What `client_session::open` names a server. -/
def serverIdOf (address : Bytes) (port : Nat) : Bytes := ascii "server:" ++ (address ++ colon :: decimal port)

theorem serverIdOf_ne_nil (address : Bytes) (port : Nat) : serverIdOf address port ≠ [] := by
  simp [serverIdOf, ascii]

/-- A session without a fixed slot goes by that name, whether it gets a slot or not. -/
theorem serverId_start (connectCount : Int) (x : SessPtr) {s : Session} (r : Registries) (hk : s.kind = .client)
    (hf : s.fixConnect = false) : (s.start connectCount x r).1.serverId = serverIdOf s.address s.port := by
  by_cases hempty : (Session.slotAsked connectCount x s r).1 = []
  · rw [Session.start_refused (Session.doOpen_set_refused hk hf hempty)]
    rfl
  · rw [Session.start_opened (Session.doOpen_set_taken hk hf hempty)]
    rfl

/-- Where `client_session::on_close` connects to again, in a session that does so: host and service, as the
    resolver is asked for them. -/
def reconnectQuery (serverId id : Bytes) : Option (Bytes × Bytes) :=
  if !serverId.isEmpty && !id.isEmpty then
    match entryOf serverId with
    | .named _ b c => some (cString b, cString c)
    | _ => none
  else none

/-! ## Splitting -/

/-- The parts of a server id are `server`, those of the address, and the port. -/
theorem splitOn_serverIdOf (address : Bytes) (port : Nat) :
    (serverIdOf address port).splitOn colon
      = ascii "server" :: (address.splitOn colon ++ [decimal port]) := by
  have hport : (decimal port).splitOn colon = [decimal port] :=
    List.splitOn_eq_singleton (not_mem_decimal port (by decide))
  have hjoin : serverIdOf address port = ascii "server" ++ colon :: (address ++ colon :: decimal port) := rfl
  rw [hjoin, List.splitOn_append_cons_self_of_not_mem (by decide), List.splitOn_append_cons_self, hport]

/-- Those of a slot id are one more. -/
theorem splitOn_slotId (s : Bytes) (i : Nat) : (slotId s i).splitOn colon = s.splitOn colon ++ [decimal i] := by
  rw [slotId, List.splitOn_append_cons_self, List.splitOn_eq_singleton (not_mem_decimal i (by decide))]

/-- An address with a separator has at least two parts. -/
theorem splitOn_of_mem {address : Bytes} (h : colon ∈ address) :
    ∃ a b rest, address.splitOn colon = a :: b :: rest := by
  obtain ⟨u, v, rfl⟩ := List.append_of_mem h
  rw [List.splitOn_append_cons_self]
  obtain ⟨a, us, hu⟩ := List.exists_cons_of_ne_nil (List.splitOn_ne_nil colon u)
  obtain ⟨b, vs, hv⟩ := List.exists_cons_of_ne_nil (List.splitOn_ne_nil colon v)
  rw [hu, hv]
  cases us with
  | nil => exact ⟨a, b, vs, rfl⟩
  | cons c us => exact ⟨a, c, us ++ b :: vs, rfl⟩

section ParseBack

variable {address : Bytes} (port : Nat)

/-! ## Addresses without a separator -/

theorem entryOf_serverIdOf (h : colon ∉ address) :
    entryOf (serverIdOf address port) = .named (ascii "server") address (decimal port) := by
  rw [entryOf, splitOn_serverIdOf, List.splitOn_eq_singleton h]
  rfl

theorem eraseById_slotId (h : colon ∉ address) (m : PeerHandleMapForClient) (i : Nat) :
    m.eraseById (slotId (serverIdOf address port) i)
      = m.erase (serverIdOf address port) (slotId (serverIdOf address port) i) := by
  rw [PeerHandleMapForClient.eraseById, splitOn_slotId, splitOn_serverIdOf, List.splitOn_eq_singleton h]
  show m.erase (ascii "server" ++ colon :: address ++ colon :: decimal port) _ = _
  rw [List.append_assoc]
  rfl

/-! ## Addresses with one -/

theorem entryOf_of_mem (h : colon ∈ address) : entryOf (serverIdOf address port) = .longer := by
  obtain ⟨a, b, rest, hsplit⟩ := splitOn_of_mem h
  rw [entryOf, splitOn_serverIdOf, hsplit]
  cases rest with
  | nil => rfl
  | cons c rest => rfl

theorem eraseById_of_mem (h : colon ∈ address) (m : PeerHandleMapForClient) (i : Nat) :
    m.eraseById (slotId (serverIdOf address port) i) = m := by
  obtain ⟨a, b, rest, hsplit⟩ := splitOn_of_mem h
  rw [PeerHandleMapForClient.eraseById, splitOn_slotId, splitOn_serverIdOf, hsplit]
  split
  · next hparts =>
      -- there are five parts at least
      have hlength := congrArg List.length hparts
      simp at hlength
  · rfl

/-- So the two ways to erase a slot that is bound tell themselves apart. -/
theorem exists_eraseById_ne (h : colon ∈ address) :
    ∃ m : PeerHandleMapForClient,
      m.eraseById (slotId (serverIdOf address port) 0)
        ≠ m.erase (serverIdOf address port) (slotId (serverIdOf address port) 0) := by
  let id := slotId (serverIdOf address port) 0
  have hs : serverIdOf address port ≠ [] := serverIdOf_ne_nil address port
  refine ⟨(PeerHandleMapForClient.empty.fixSet (serverIdOf address port) id (some 0)).2, fun heq => ?_⟩
  rw [eraseById_of_mem port h] at heq
  have hfind := congrArg (fun m => m.map.find id) heq
  simp only [PeerHandleMapForClient.find_fixSet hs (slotId_ne_nil _ 0), PeerHandleMapForClient.find_erase,
    id, if_true] at hfind
  cases hfind

end ParseBack

/-- `address_v4::to_string`. -/
def dottedQuad (a b c d : UInt8) : Bytes :=
  decimal a.toNat ++ 46 :: (decimal b.toNat ++ 46 :: (decimal c.toNat ++ 46 :: decimal d.toNat))

theorem colon_not_mem_dottedQuad (a b c d : UInt8) : colon ∉ dottedQuad a b c d := by
  have hpart : ∀ n, colon ∉ decimal n := fun n => not_mem_decimal n (by decide)
  have hdot : colon ≠ 46 := by decide
  simp [dottedQuad, hpart, hdot]

/-- **Ids of IPv4 servers parse back.** -/
theorem ipv4_ids_parse_back (a b c d : UInt8) (port i : Nat) (m : PeerHandleMapForClient) :
    let s := serverIdOf (dottedQuad a b c d) port
    m.eraseById (slotId s i) = m.erase s (slotId s i) ∧
      entryOf s = .named (ascii "server") (dottedQuad a b c d) (decimal port) := by
  have h := colon_not_mem_dottedQuad a b c d
  exact ⟨eraseById_slotId port h m i, entryOf_serverIdOf port h⟩

/-- **Which slot ids parse back.** Exactly those of an address without a separator: for them the one-argument
    `erase` does what the other one does, to every registry and in every slot, and the split of a server id, in
    the loops and in `on_close`, recovers address and port. -/
theorem slot_ids_parse_back_iff (address : Bytes) (port : Nat) :
    let s := serverIdOf address port
    ((∀ (m : PeerHandleMapForClient) (i : Nat), m.eraseById (slotId s i) = m.erase s (slotId s i)) ↔
      colon ∉ address) ∧
    (entryOf s = .named (ascii "server") address (decimal port) ↔ colon ∉ address) ∧
    ((∀ i, reconnectQuery s (slotId s i) = some (cString address, cString (decimal port))) ↔
      colon ∉ address) := by
  intro s
  refine ⟨?_, ?_, ?_⟩
  · constructor
    · intro herase hmem
      obtain ⟨m, hne⟩ := exists_eraseById_ne port hmem
      exact hne (herase m 0)
    · intro h m i
      exact eraseById_slotId port h m i
  · constructor
    · intro hentry hmem
      rw [entryOf_of_mem port hmem] at hentry
      cases hentry
    · exact entryOf_serverIdOf port
  · have hquery : ∀ i, reconnectQuery s (slotId s i) = match entryOf s with
        | .named _ b c => some (cString b, cString c)
        | _ => none := by
      intro i
      rw [reconnectQuery, if_pos]
      simp [s, serverIdOf_ne_nil, slotId_ne_nil]
    constructor
    · intro hrecovers hmem
      have hnone := hrecovers 0
      rw [hquery, entryOf_of_mem port hmem] at hnone
      cases hnone
    · intro h i
      rw [hquery, entryOf_serverIdOf port h]

/-- Neither half holds for `fe80::1`. -/
theorem slot_ids_of_ipv6 :
    (¬ ∀ (address : Bytes) (port i : Nat) (m : PeerHandleMapForClient),
      m.eraseById (slotId (serverIdOf address port) i)
        = m.erase (serverIdOf address port) (slotId (serverIdOf address port) i)) ∧
    ¬ ∀ (address : Bytes) (port : Nat),
      entryOf (serverIdOf address port) = .named (ascii "server") address (decimal port) := by
  have hmem : colon ∈ ascii "fe80::1" := by decide
  constructor
  · intro h
    obtain ⟨m, hne⟩ := exists_eraseById_ne 80 hmem
    exact hne (h (ascii "fe80::1") 80 0 m)
  · intro h
    have hentry := h (ascii "fe80::1") 80
    rw [entryOf_of_mem 80 hmem] at hentry
    cases hentry

end BServer
