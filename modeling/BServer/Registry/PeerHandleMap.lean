import Mathlib.Data.List.Infix
import Mathlib.Data.List.GetD
import BServer.Base.Bytes
import BServer.Base.StdMap

/-!
# `Registry.PeerHandleMap` — the two session registries

`peer_handle_map` binds an id to a session; `peer_handle_map_for_client` adds, for each server, the list of
slot ids connected to it, from which `get` draws at random. Every method holds `mutex_` throughout, so each
one is a single function on the registry.

`map_[k]` is used as a probe in several places and leaves a null entry behind; `client_list_[s]` leaves an
empty list. Both are modelled (`StdMap.touch`), so a binding is present-and-null (`some none`) after a
probe and absent (`none`) before it, and `find` tells the two apart exactly where the source does.

The section *What each method does* gives one lemma per method and container; no later proof unfolds a
method, but for the split of the one-argument `erase`. That of `set` is `set_outcome`: it rests on counting, since
the probes stop at a free slot only because the count of matches runs over every bound one (`le_findMatched`).
-/

namespace BServer

open Bytes

/-- A session object, named by the order of its construction. A `boost::shared_ptr<session_base>` is an
    `Option SessPtr`, with `none` for the null pointer. -/
abbrev SessPtr := Nat

/-- The byte `':'`. -/
def colon : UInt8 := 58

/-- `ss << id << ":" << i`: the id of slot `i` of a server. -/
def slotId (serverId : Bytes) (i : Nat) : Bytes := serverId ++ colon :: decimal i

theorem slotId_inj {s t : Bytes} {i j : Nat} (h : slotId s i = slotId t j) : s = t ∧ i = j :=
  append_sep_decimal_inj (by decide) h

theorem slotId_ne_nil (s : Bytes) (i : Nat) : slotId s i ≠ [] := by simp [slotId]

theorem infix_slotId (e : Bytes) (c : Nat) : e <:+: slotId e c := (List.prefix_append e _).isInfix

/-- The slots of a server, up to a number. -/
def slots (s : Bytes) (n : Nat) : List Bytes := (List.range n).map (slotId s)

@[simp] theorem length_slots (s : Bytes) (n : Nat) : (slots s n).length = n := by
  rw [slots, List.length_map, List.length_range]

theorem mem_slots {s k : Bytes} {n : Nat} : k ∈ slots s n ↔ ∃ i < n, slotId s i = k := by
  simp [slots]

theorem nodup_slots (s : Bytes) (n : Nat) : (slots s n).Nodup :=
  List.nodup_range.map (fun _ _ h => (slotId_inj h).2)

/-- `peer_handle_map`: the registry `__PEER_MAP` of accepted sessions. -/
structure PeerHandleMap where
  map : StdMap Bytes (Option SessPtr)
deriving DecidableEq

/-- `peer_handle_map_for_client`: the registry `__PEER_MAP_CLIENT` of connected sessions. -/
structure PeerHandleMapForClient where
  map        : StdMap Bytes (Option SessPtr)
  clientList : StdMap Bytes (List Bytes)
deriving DecidableEq

/-- `random_num(count)`, for the value `rand` that `rand()` returns. -/
def randomNum (count rand : Nat) : Nat := if count = 0 then 0 else rand % count

namespace PeerHandleMap

def empty : PeerHandleMap := ⟨∅⟩

/-- `set`: an old binding is erased, then the new one is made. -/
def set (m : PeerHandleMap) (id : Bytes) (p : Option SessPtr) : Bytes × PeerHandleMap :=
  let map := match m.map.find id with
    | some _ => m.map.erase id
    | none   => m.map
  (id, ⟨map.assign id p⟩)

/-- `get`: null when the id is not bound, or bound to null. -/
def get (m : PeerHandleMap) (id : Bytes) : Option SessPtr :=
  match m.map.find id with
  | some _ => m.map.valueAt id
  | none   => none

def erase (m : PeerHandleMap) (id : Bytes) : PeerHandleMap := ⟨m.map.erase id⟩

theorem get_eq_some {m : PeerHandleMap} {id : Bytes} {x : SessPtr} :
    m.get id = some x ↔ m.map.find id = some (some x) := by
  simp only [get, StdMap.valueAt]
  cases m.map.find id with
  | none => simp
  | some p => simp

/-- A null entry and no entry look the same. -/
theorem get_eq_valueAt (m : PeerHandleMap) (id : Bytes) : m.get id = m.map.valueAt id := by
  simp only [get, StdMap.valueAt]
  cases m.map.find id with
  | none => rfl
  | some p => rfl

theorem get_set (m : PeerHandleMap) (id : Bytes) (p : Option SessPtr) (k : Bytes) :
    (m.set id p).2.get k = if k = id then p else m.get k := by
  simp only [get_eq_valueAt, set, StdMap.valueAt_assign]
  by_cases hk : k = id
  · rw [if_pos hk, if_pos hk]
  · -- the erased old binding was under the same id
    rw [if_neg hk, if_neg hk]
    cases m.map.find id with
    | none => rfl
    | some q => rw [StdMap.valueAt, StdMap.find_erase, if_neg hk, StdMap.valueAt]

theorem get_erase (m : PeerHandleMap) (id k : Bytes) :
    (m.erase id).get k = if k = id then none else m.get k := by
  simp only [get_eq_valueAt, erase, StdMap.valueAt, StdMap.find_erase]
  by_cases hk : k = id
  · rw [if_pos hk, if_pos hk]
    rfl
  · rw [if_neg hk, if_neg hk]

end PeerHandleMap

namespace PeerHandleMapForClient

def empty : PeerHandleMapForClient := ⟨∅, ∅⟩

/-- `find_matched`: how many keys contain `id` as a substring. -/
def findMatched (m : PeerHandleMapForClient) (id : Bytes) : Nat :=
  m.map.keys.countP (fun k => id <:+: k)

/-- The loop of `set` that looks for a free slot: each probe is an `operator[]`. Returns the first slot
    that holds no session, and the map with the entries the probes left. -/
def findHole (map : StdMap Bytes (Option SessPtr)) (id : Bytes) :
    List Nat → Option Bytes × StdMap Bytes (Option SessPtr)
  | []      => (none, map)
  | i :: is =>
      if map.valueAt (slotId id i) = none then (some (slotId id i), map.touch (slotId id i))
      else findHole (map.touch (slotId id i)) id is

/-- `client_list_[s].push_back(id)`. -/
def pushBack (l : StdMap Bytes (List Bytes)) (s id : Bytes) : StdMap Bytes (List Bytes) :=
  l.assign s (l.valueAt s ++ [id])

/-- The loop that erases the first occurrence of `id` from `client_list_[s]`. -/
def dropListed (l : StdMap Bytes (List Bytes)) (s id : Bytes) : StdMap Bytes (List Bytes) :=
  l.assign s ((l.valueAt s).erase id)

/-- `set`: bind `p` to the next slot of server `id`, or to the first free one. The empty id means that the
    session was refused. -/
def set (m : PeerHandleMapForClient) (connectCount : Int) (id : Bytes) (p : Option SessPtr) :
    Bytes × PeerHandleMapForClient :=
  let count := m.findMatched id
  let ss := slotId id count
  if (count : Int) ≥ connectCount then ([], m)
  else
    -- `map_[ss]` is evaluated as a probe and leaves a null entry
    let map := m.map.touch ss
    if (m.map.valueAt ss).isSome then
      match findHole map id (List.range count) with
      -- the id pushed to the list is `ss`, not the slot that was found
      | (some strTmp, map) => (strTmp, ⟨map.assign strTmp p, pushBack m.clientList id ss⟩)
      | (none, map)        => ([], ⟨map, m.clientList⟩)
    else (ss, ⟨map.assign ss p, pushBack m.clientList id ss⟩)

/-- `fix_set`: bind `p` under a given slot id. -/
def fixSet (m : PeerHandleMapForClient) (serverId id : Bytes) (p : Option SessPtr) :
    Int × PeerHandleMapForClient :=
  if serverId.isEmpty || id.isEmpty then (-1, m)
  else (0, ⟨m.map.assign id p, pushBack (dropListed m.clientList serverId id) serverId id⟩)

/-- `fix_get`, which is `peer_handle_map::get`. -/
def fixGet (m : PeerHandleMapForClient) (id : Bytes) : Option SessPtr := PeerHandleMap.get ⟨m.map⟩ id

/-- `get`: a random one of the sessions listed for the server. The size of the list fits an `int`, as slot
    numbers do. -/
def get (m : PeerHandleMapForClient) (id : Bytes) (rand : Nat) :
    Option SessPtr × PeerHandleMapForClient :=
  let list := m.clientList.valueAt id
  let m := { m with clientList := m.clientList.touch id }
  if list.length = 0 then (none, m)
  else
    let ss := list.getD (randomNum list.length rand) []
    match m.map.find ss with
    | some _ => (m.map.valueAt ss, m)
    | none   => (none, m)

/-- `erase(server_id, id)`. -/
def erase (m : PeerHandleMapForClient) (serverId id : Bytes) : PeerHandleMapForClient :=
  ⟨m.map.erase id, dropListed m.clientList serverId id⟩

/-- `erase(id)`: the server id is what stands before the last of exactly three separators. -/
def eraseById (m : PeerHandleMapForClient) (id : Bytes) : PeerHandleMapForClient :=
  match id.splitOn colon with
  | [a, b, c, _] => m.erase (a ++ colon :: b ++ colon :: c) id
  | _            => m

/-- `close_all`, and `clean`: the lists are kept. -/
def closeAll (m : PeerHandleMapForClient) : PeerHandleMapForClient := ⟨∅, m.clientList⟩

/-- The slot ids listed for a server. -/
def listed (m : PeerHandleMapForClient) (serverId : Bytes) : List Bytes := m.clientList.valueAt serverId

/-! ## What each method does -/

@[simp] theorem listed_empty (serverId : Bytes) : empty.listed serverId = [] := StdMap.valueAt_empty _

theorem fixGet_eq_some {m : PeerHandleMapForClient} {id : Bytes} {x : SessPtr} :
    m.fixGet id = some x ↔ m.map.find id = some (some x) := PeerHandleMap.get_eq_some

/-- A null entry and no entry look the same. -/
theorem fixGet_eq_valueAt (m : PeerHandleMapForClient) (id : Bytes) : m.fixGet id = m.map.valueAt id :=
  PeerHandleMap.get_eq_valueAt _ _

theorem fixGet_fixSet {m : PeerHandleMapForClient} {s id : Bytes} {p : Option SessPtr} (hs : s ≠ [])
    (hid : id ≠ []) (k : Bytes) : (m.fixSet s id p).2.fixGet k = if k = id then p else m.fixGet k := by
  simp only [fixGet_eq_valueAt]
  rw [fixSet, if_neg (by simp [List.isEmpty_iff, hs, hid])]
  exact StdMap.valueAt_assign _ _ _ _

theorem fixGet_erase (m : PeerHandleMapForClient) (s id k : Bytes) :
    (m.erase s id).fixGet k = if k = id then none else m.fixGet k := by
  simp only [fixGet_eq_valueAt, StdMap.valueAt]
  rw [show (m.erase s id).map = m.map.erase id from rfl, StdMap.find_erase]
  split
  · rfl
  · rfl

/-- The search leaves an entry only where it stops: each slot it passes holds a session. -/
theorem findHole_cases (map : StdMap Bytes (Option SessPtr)) (id : Bytes) (is : List Nat) :
    ((∀ i ∈ is, map.valueAt (slotId id i) ≠ none) ∧ findHole map id is = (none, map)) ∨
    ∃ i ∈ is, map.valueAt (slotId id i) = none ∧
      findHole map id is = (some (slotId id i), map.touch (slotId id i)) := by
  induction is with
  | nil => exact Or.inl ⟨fun _ hi => absurd hi List.not_mem_nil, rfl⟩
  | cons i is ih =>
      rw [findHole]
      by_cases h : map.valueAt (slotId id i) = none
      · rw [if_pos h]
        exact Or.inr ⟨i, List.mem_cons_self, h, rfl⟩
      · have hpresent : map.find (slotId id i) ≠ none := by
          intro hnone
          apply h
          rw [StdMap.valueAt, hnone]
          rfl
        rw [if_neg h, StdMap.touch_present hpresent]
        rcases ih with ⟨hall, heq⟩ | ⟨j, hj, hfree, heq⟩
        · exact Or.inl ⟨List.forall_mem_cons.mpr ⟨h, hall⟩, heq⟩
        · exact Or.inr ⟨j, List.mem_cons_of_mem i hj, hfree, heq⟩

theorem mem_keys_of_bound {m : PeerHandleMapForClient} {k : Bytes} (h : m.fixGet k ≠ none) :
    k ∈ m.map.keys := by
  obtain ⟨x, hx⟩ := Option.ne_none_iff_exists'.mp h
  apply StdMap.mem_keys.mpr
  rw [fixGet_eq_some.mp hx]
  exact Option.some_ne_none _

/-- Every bound slot is counted. -/
theorem le_findMatched {m : PeerHandleMapForClient} {id : Bytes} {c : Nat}
    (h : ∀ i < c, m.fixGet (slotId id i) ≠ none) : c ≤ m.findMatched id := by
  have hslots : ∀ k ∈ slots id c, k ∈ m.map.keys ∧ id <:+: k := by
    intro k hk
    obtain ⟨i, hi, rfl⟩ := mem_slots.mp hk
    exact ⟨mem_keys_of_bound (h i hi), infix_slotId id i⟩
  have hle := StdMap.length_le_countP (nodup_slots id c) hslots
  rwa [length_slots] at hle

/-- Where the next slot is bound, one before it is free: all of them are counted. -/
theorem exists_free {m : PeerHandleMapForClient} {id : Bytes}
    (h : m.fixGet (slotId id (m.findMatched id)) ≠ none) :
    ∃ i < m.findMatched id, m.fixGet (slotId id i) = none := by
  by_contra hnone
  have hall : ∀ i < m.findMatched id + 1, m.fixGet (slotId id i) ≠ none := by
    intro i hi hfree
    rcases Nat.lt_or_eq_of_le (Nat.le_of_lt_succ hi) with hlt | heq
    · exact hnone ⟨i, hlt, hfree⟩
    · exact h (heq ▸ hfree)
  exact Nat.not_succ_le_self _ (le_findMatched hall)

theorem listed_pushBack (m : PeerHandleMapForClient) (map : StdMap Bytes (Option SessPtr)) (s k t : Bytes) :
    listed ⟨map, pushBack m.clientList s k⟩ t = if t = s then m.listed s ++ [k] else m.listed t :=
  StdMap.valueAt_assign _ _ _ _

/-- **What `set` does.** It refuses when the count of matches has reached the limit, and changes nothing.
    Otherwise it binds the session to a free slot: the one numbered by the count, or one before it. The slot
    that is listed is the one numbered by the count, always. -/
theorem set_outcome (m : PeerHandleMapForClient) (connectCount : Int) (id : Bytes) (p : Option SessPtr) :
    (connectCount ≤ m.findMatched id ∧ m.set connectCount id p = ([], m)) ∨
    ((m.findMatched id : Int) < connectCount ∧ ∃ i ≤ m.findMatched id, m.fixGet (slotId id i) = none ∧
      (m.fixGet (slotId id (m.findMatched id)) = none → i = m.findMatched id) ∧
      m.set connectCount id p = (slotId id i,
        ⟨m.map.assign (slotId id i) p, pushBack m.clientList id (slotId id (m.findMatched id))⟩)) := by
  rw [set]
  simp only [fixGet_eq_valueAt]
  by_cases hfull : connectCount ≤ m.findMatched id
  · exact Or.inl ⟨hfull, if_pos hfull⟩
  refine Or.inr ⟨Int.not_le.mp hfull, ?_⟩
  rw [if_neg hfull]
  cases hnext : m.map.valueAt (slotId id (m.findMatched id)) with
  | none =>
      refine ⟨m.findMatched id, Nat.le_refl _, hnext, fun _ => rfl, ?_⟩
      rw [if_neg (by decide), StdMap.assign_touch]
  | some x =>
      have hbound : m.fixGet (slotId id (m.findMatched id)) ≠ none := by
        rw [fixGet_eq_valueAt, hnext]
        exact Option.some_ne_none x
      -- the probe of a bound slot leaves no trace either
      have htouch : m.map.touch (slotId id (m.findMatched id)) = m.map :=
        StdMap.touch_present (StdMap.mem_keys.mp (mem_keys_of_bound hbound))
      rw [if_pos (by rfl), htouch]
      rcases findHole_cases m.map id (List.range (m.findMatched id)) with ⟨hall, _⟩ | ⟨i, hi, hfree, heq⟩
      · obtain ⟨i, hi, hfree⟩ := exists_free hbound
        rw [fixGet_eq_valueAt] at hfree
        exact absurd hfree (hall i (List.mem_range.mpr hi))
      · refine ⟨i, Nat.le_of_lt (List.mem_range.mp hi), hfree, (fun h => by cases h), ?_⟩
        rw [heq]
        simp only [StdMap.assign_touch]

/-- `set` refuses exactly when the count of matches has reached the limit. -/
theorem set_eq_nil_iff {m : PeerHandleMapForClient} {connectCount : Int} {id : Bytes} {p : Option SessPtr} :
    (m.set connectCount id p).1 = [] ↔ connectCount ≤ m.findMatched id := by
  rcases set_outcome m connectCount id p with ⟨hfull, heq⟩ | ⟨hroom, i, _, _, _, heq⟩
  · rw [heq]
    exact iff_of_true rfl hfull
  · rw [heq]
    exact iff_of_false (slotId_ne_nil id i) (Int.not_le.mpr hroom)

/-- What that means for the bindings: it changes none, or one that bound no session. -/
theorem set_cases (m : PeerHandleMapForClient) (connectCount : Int) (id : Bytes) (p : Option SessPtr) :
    ((m.set connectCount id p).1 = [] ∧ ∀ k, (m.set connectCount id p).2.fixGet k = m.fixGet k) ∨
    ∃ i, (m.set connectCount id p).1 = slotId id i ∧ m.fixGet (slotId id i) = none ∧
      ∀ k, (m.set connectCount id p).2.fixGet k = if k = slotId id i then p else m.fixGet k := by
  rcases set_outcome m connectCount id p with ⟨_, heq⟩ | ⟨_, i, _, hfree, _, heq⟩
  · rw [heq]
    exact Or.inl ⟨rfl, fun _ => rfl⟩
  · rw [heq]
    refine Or.inr ⟨i, rfl, hfree, fun k => ?_⟩
    simp only [fixGet_eq_valueAt]
    exact StdMap.valueAt_assign _ _ _ _

/-- When all slots are taken, `set` refuses. -/
theorem set_full {m : PeerHandleMapForClient} {connectCount : Int} {id : Bytes}
    (h : connectCount ≤ m.findMatched id) (p : Option SessPtr) : m.set connectCount id p = ([], m) := by
  unfold set
  exact if_pos h

/-- When the slot numbered by the count of matches is free, `set` takes that one. -/
theorem set_next {m : PeerHandleMapForClient} (connectCount : Int) {id : Bytes}
    (hcount : (m.findMatched id : Int) < connectCount) (hfree : m.fixGet (slotId id (m.findMatched id)) = none)
    (p : Option SessPtr) :
    (m.set connectCount id p).1 = slotId id (m.findMatched id) ∧
    (m.set connectCount id p).2.map = m.map.assign (slotId id (m.findMatched id)) p := by
  rcases set_outcome m connectCount id p with ⟨hfull, _⟩ | ⟨_, i, _, _, hnext, heq⟩
  · exact absurd hfull (Int.not_le.mpr hcount)
  · rw [heq, hnext hfree]
    exact ⟨rfl, rfl⟩

theorem fixSet_eq {m : PeerHandleMapForClient} {s id : Bytes} {p : Option SessPtr} (hs : s ≠ [])
    (hid : id ≠ []) :
    m.fixSet s id p
      = (0, ⟨m.map.assign id p, pushBack (dropListed m.clientList s id) s id⟩) := by
  rw [fixSet, if_neg]
  simp [List.isEmpty_iff, hs, hid]

theorem fixSet_refused {m : PeerHandleMapForClient} {s id : Bytes} {p : Option SessPtr}
    (h : s = [] ∨ id = []) : m.fixSet s id p = (-1, m) := by
  rw [fixSet, if_pos]
  simpa [List.isEmpty_iff] using h

theorem listed_fixSet {m : PeerHandleMapForClient} {s id : Bytes} {p : Option SessPtr} (hs : s ≠ [])
    (hid : id ≠ []) (t : Bytes) :
    (m.fixSet s id p).2.listed t = if t = s then (m.listed s).erase id ++ [id] else m.listed t := by
  rw [fixSet_eq hs hid]
  simp only [listed, pushBack, dropListed, StdMap.valueAt_assign]
  by_cases h : t = s
  · simp [h]
  · simp [h]

theorem find_fixSet {m : PeerHandleMapForClient} {s id : Bytes} {p : Option SessPtr} (hs : s ≠ [])
    (hid : id ≠ []) (k : Bytes) :
    (m.fixSet s id p).2.map.find k = if k = id then some p else m.map.find k := by
  rw [fixSet_eq hs hid]
  exact StdMap.find_assign _ _ _ _

@[simp] theorem find_erase (m : PeerHandleMapForClient) (s id k : Bytes) :
    (m.erase s id).map.find k = if k = id then none else m.map.find k :=
  StdMap.find_erase _ _ _

@[simp] theorem listed_erase (m : PeerHandleMapForClient) (s id t : Bytes) :
    (m.erase s id).listed t = if t = s then (m.listed s).erase id else m.listed t :=
  StdMap.valueAt_assign _ _ _ _

/-- The one-argument `erase` is the other one, for some server, or does nothing. -/
theorem eraseById_cases (m : PeerHandleMapForClient) (id : Bytes) :
    (∃ s, m.eraseById id = m.erase s id) ∨ m.eraseById id = m := by
  rw [eraseById]
  split
  · next a b c _ _ => exact Or.inl ⟨_, rfl⟩
  · exact Or.inr rfl

/-- `get` changes nothing that any method can observe. -/
theorem get_state (m : PeerHandleMapForClient) (id : Bytes) (rand : Nat) :
    (m.get id rand).2 = { m with clientList := m.clientList.touch id } := by
  simp only [get]
  split
  · rfl
  · split <;> rfl

@[simp] theorem listed_get (m : PeerHandleMapForClient) (id t : Bytes) (rand : Nat) :
    (m.get id rand).2.listed t = m.listed t := by
  rw [get_state]
  exact StdMap.valueAt_touch _ _ _

@[simp] theorem map_get (m : PeerHandleMapForClient) (id : Bytes) (rand : Nat) :
    (m.get id rand).2.map = m.map := by rw [get_state]

theorem get_of_nil {m : PeerHandleMapForClient} {id : Bytes} (h : m.listed id = []) (rand : Nat) :
    (m.get id rand).1 = none := by
  simp only [get]
  rw [if_pos]
  show (m.listed id).length = 0
  rw [h]
  rfl

/-- The drawn index is in range whenever something is listed. -/
theorem randomNum_lt {count : Nat} (h : 0 < count) (rand : Nat) : randomNum count rand < count := by
  rw [randomNum, if_neg (Nat.pos_iff_ne_zero.mp h)]
  exact Nat.mod_lt _ h

theorem get_of_ne_nil {m : PeerHandleMapForClient} {id : Bytes} (h : m.listed id ≠ []) (rand : Nat) :
    ∃ k ∈ m.listed id, (m.get id rand).1 = m.fixGet k := by
  have hpos : 0 < (m.listed id).length := List.length_pos_iff.mpr h
  have hlt := randomNum_lt hpos rand
  refine ⟨(m.listed id)[randomNum (m.listed id).length rand], List.getElem_mem hlt, ?_⟩
  simp only [get]
  rw [if_neg (show (m.clientList.valueAt id).length ≠ 0 from Nat.pos_iff_ne_zero.mp hpos)]
  have hk : (m.clientList.valueAt id).getD (randomNum (m.clientList.valueAt id).length rand) []
      = (m.listed id)[randomNum (m.listed id).length rand] := List.getD_eq_getElem _ _ hlt
  rw [hk]
  simp only [fixGet, PeerHandleMap.get]
  split <;> rfl

end PeerHandleMapForClient

end BServer
