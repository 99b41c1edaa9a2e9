import BServer.Registry.SlotTable

/-!
# `Registry.SetSlot` — the slots that `set` gives out

`set` is asked for a slot of a server, and answers with the next one, numbered by how many keys of the map
contain the name of the server, or with one before it that was freed. `set_outcome` says all it can do; three
questions about it are settled here.

* **Which slot** (`set_takes_free_slot`): always a free one below the limit, and nothing else is touched. That
  one is free follows by counting: were the slots up to the count all bound, the count would be larger.
* **Which entry** (`set_indexes_iff`): `client_list_` gets the next slot's id on both branches, so the two
  containers part ways exactly where an earlier slot was reused.
* **When it refuses** (`set_refuses_when_full_iff`): the count also runs over keys of other servers whose names
  extend this one, so a server can be turned away while it has free slots. In a reachable state that depends on
  two numbers only, the keys that are counted and are no slot of the server (`foreignMatches`), and the slots
  that are free (`freeSlots`).
-/

namespace BServer

open Bytes

namespace PeerHandleMapForClient

/-- No probe left a null entry behind. -/
def NoNull (m : PeerHandleMapForClient) : Prop := ∀ k, m.map.find k ≠ some none

theorem NoNull.empty : NoNull .empty := by
  intro k
  rw [PeerHandleMapForClient.empty, StdMap.find_empty]
  exact (Option.some_ne_none none).symm

/-- Then what is not bound has no entry. -/
theorem NoNull.mem_keys_iff {m : PeerHandleMapForClient} (h : m.NoNull) (k : Bytes) :
    k ∈ m.map.keys ↔ m.fixGet k ≠ none := by
  refine ⟨fun hk => ?_, mem_keys_of_bound⟩
  rw [StdMap.mem_keys] at hk
  obtain ⟨q, hq⟩ := Option.ne_none_iff_exists'.mp hk
  cases q with
  | none => exact absurd hq (h k)
  | some x =>
      rw [fixGet_eq_some.mpr hq]
      exact Option.some_ne_none x

theorem NoNull.assign {m : PeerHandleMapForClient} (h : m.NoNull) (k : Bytes) (p : SessPtr)
    (l : StdMap Bytes (List Bytes)) : NoNull ⟨m.map.assign k (some p), l⟩ := by
  intro k'
  rw [StdMap.find_assign]
  split
  · simp
  · exact h k'

theorem NoNull.erase {m : PeerHandleMapForClient} (h : m.NoNull) (s id : Bytes) : (m.erase s id).NoNull := by
  intro k
  rw [find_erase]
  split
  · exact (Option.some_ne_none none).symm
  · exact h k

/-! ## Which slot -/

theorem NoNull.set {m : PeerHandleMapForClient} (h : m.NoNull) (connectCount : Int) (s : Bytes) (p : SessPtr) :
    (m.set connectCount s (some p)).2.NoNull := by
  rcases set_outcome m connectCount s (some p) with ⟨_, heq⟩ | ⟨_, i, _, _, _, heq⟩
  · rw [heq]
    exact h
  · rw [heq]
    exact h.assign _ p _

/-- **`set` never clobbers and always finds its hole.** While the count of matches is below the limit it takes
    a slot below the limit that held no session, binds the session there, and keeps every other entry; it leaves
    no null entry, and when it refuses it leaves the map alone. -/
theorem set_takes_free_slot {m : PeerHandleMapForClient} (hnull : m.NoNull) (connectCount : Int) (s : Bytes)
    (p : SessPtr) :
    let out := m.set connectCount s (some p)
    ((m.findMatched s : Int) < connectCount → out.1 ≠ [] ∧ ∃ i : Nat, (i : Int) < connectCount ∧
      out.1 = slotId s i ∧ m.fixGet (slotId s i) = none ∧ out.2.map.find (slotId s i) = some (some p) ∧
      ∀ k, k ≠ slotId s i → out.2.map.find k = m.map.find k) ∧
    out.2.NoNull ∧ (out.1 = [] → out.2.map = m.map) := by
  intro out
  refine ⟨fun hroom => ?_, hnull.set connectCount s p, fun hnil => ?_⟩
  · refine ⟨fun hnil => absurd (set_eq_nil_iff.mp hnil) (Int.not_le.mpr hroom), ?_⟩
    rcases set_outcome m connectCount s (some p) with ⟨hfull, _⟩ | ⟨_, i, hi, hfree, _, heq⟩
    · exact absurd hfull (Int.not_le.mpr hroom)
    · have hlt : (i : Int) < connectCount := Int.lt_of_le_of_lt (Int.ofNat_le.mpr hi) hroom
      rw [show out = _ from heq]
      refine ⟨i, hlt, rfl, hfree, ?_, fun k hk => ?_⟩
      · rw [StdMap.find_assign, if_pos rfl]
      · rw [StdMap.find_assign, if_neg hk]
  · rw [show out = _ from set_full (set_eq_nil_iff.mp hnil) (some p)]

/-- A registry where slot 1 of one server is bound, and slot 0 is not. -/
def holed : PeerHandleMapForClient :=
  (empty.fixSet (ascii "server:10.0.0.1:80") (slotId (ascii "server:10.0.0.1:80") 1) (some 7)).2

theorem holed_noNull : holed.NoNull := by
  rw [holed, fixSet_eq (by decide) (slotId_ne_nil _ _)]
  exact NoNull.empty.assign _ 7 _

/-- There the session goes to slot 0. -/
theorem set_takes_free_slot_holed :
    let out := holed.set 3 (ascii "server:10.0.0.1:80") (some 8)
    out.1 = slotId (ascii "server:10.0.0.1:80") 0 ∧ out.1 ≠ [] ∧ out.2.NoNull := by
  have hspec := set_takes_free_slot holed_noNull 3 (ascii "server:10.0.0.1:80") 8
  exact ⟨by decide, (hspec.1 (by decide)).1, hspec.2.1⟩

/-! ## Which entry -/

/-- **`set` indexes the slot it binds exactly where it binds the next one.** On consistent containers, a
    session that was given a slot is bound under the id returned, that id is appended to the list of the server,
    and the containers stay consistent: unless the slot numbered by the count of matches is bound, and one
    before it was given out. -/
theorem set_indexes_iff {m : PeerHandleMapForClient} (h : Consistent m) (connectCount : Int) (s : Bytes)
    (p : SessPtr) :
    let out := m.set connectCount s (some p)
    (out.1 ≠ [] → out.2.map.find out.1 = some (some p) ∧ out.2.listed s = m.listed s ++ [out.1] ∧
      Consistent out.2) ↔
    connectCount ≤ m.findMatched s ∨ m.fixGet (slotId s (m.findMatched s)) = none := by
  intro out
  rcases set_outcome m connectCount s (some p) with ⟨hfull, heq⟩ | ⟨hroom, i, _, hfree, hnext, heq⟩
  · rw [show out = _ from heq]
    exact iff_of_true (fun hne => absurd rfl hne) (Or.inl hfull)
  · rw [show out = _ from heq]
    constructor
    · intro hindexed
      obtain ⟨_, hlisted, _⟩ := hindexed (slotId_ne_nil s i)
      rw [listed_pushBack, if_pos rfl] at hlisted
      -- the entry appended is the one of the next slot
      have hnumber := (slotId_inj (List.singleton_inj.mp (List.append_cancel_left hlisted))).2
      rw [hnumber]
      exact Or.inr hfree
    · intro hcond _
      have hnextFree : m.fixGet (slotId s (m.findMatched s)) = none :=
        hcond.resolve_left (Int.not_le.mpr hroom)
      obtain rfl := hnext hnextFree
      refine ⟨?_, ?_, h.pushed p hfree⟩
      · rw [StdMap.find_assign, if_pos rfl]
      · rw [listed_pushBack, if_pos rfl]

theorem holed_consistent : Consistent holed := Agrees.empty.consistent.fixSet (by decide) 1 7

/-- In `holed` the next slot is bound, so the session goes to slot 0 and slot 1 is listed once more. -/
theorem set_indexes_iff_holed :
    let s := ascii "server:10.0.0.1:80"
    let out := holed.set 3 s (some 8)
    ¬ (out.1 ≠ [] → out.2.map.find out.1 = some (some 8) ∧ out.2.listed s = holed.listed s ++ [out.1] ∧
      Consistent out.2) := by
  intro s out hindexed
  have hcond := (set_indexes_iff holed_consistent 3 s 8).mp hindexed
  exact absurd hcond (by decide)

theorem set_mislists :
    ¬ ∀ (m : PeerHandleMapForClient) (connectCount : Int) (s : Bytes) (p : SessPtr), Consistent m →
      let out := m.set connectCount s (some p)
      out.1 ≠ [] → out.2.map.find out.1 = some (some p) ∧ out.2.listed s = m.listed s ++ [out.1] ∧
        Consistent out.2 := by
  intro h
  have hlisted := (h holed 3 (ascii "server:10.0.0.1:80") 8 holed_consistent (by decide)).2.1
  exact absurd hlisted (by decide)

/-! ## When it refuses -/

/-- The keys that are counted for a server and are none of its slots. -/
def foreignMatches (m : PeerHandleMapForClient) (s : Bytes) (n : Nat) : Nat :=
  m.map.keys.countP (fun k => s <:+: k ∧ k ∉ slots s n)

/-- The slots of a server that are not bound. -/
def freeSlots (m : PeerHandleMapForClient) (s : Bytes) (n : Nat) : Nat :=
  (slots s n).countP (fun k => m.fixGet k = none)

theorem freeSlots_eq_zero {m : PeerHandleMapForClient} {s : Bytes} {n : Nat} :
    m.freeSlots s n = 0 ↔ ∀ i < n, m.fixGet (slotId s i) ≠ none := by
  rw [freeSlots, List.countP_eq_zero]
  constructor
  · intro h i hi hfree
    exact h _ (mem_slots.mpr ⟨i, hi, rfl⟩) (decide_eq_true hfree)
  · intro h k hk
    obtain ⟨i, hi, rfl⟩ := mem_slots.mp hk
    simpa using h i hi

/-- The count of matches is what is bound of the server, and what is foreign to it. -/
theorem findMatched_split (m : PeerHandleMapForClient) (s : Bytes) (n : Nat) :
    m.findMatched s = m.map.keys.countP (fun k => k ∈ slots s n) + m.foreignMatches s n := by
  rw [findMatched, foreignMatches, List.countP_eq_countP_filter_add _ _ (fun k => decide (k ∈ slots s n)),
    List.countP_filter, List.countP_filter]
  congr 1
  · apply List.countP_congr
    intro k _
    simp only [Bool.and_eq_true, decide_eq_true_eq, and_iff_right_iff_imp]
    -- every slot of the server contains its name
    intro hk
    obtain ⟨i, _, rfl⟩ := mem_slots.mp hk
    exact infix_slotId s i
  · apply List.countP_congr
    intro k _
    simp

/-- Every slot is a key, or free. -/
theorem NoNull.keys_add_free {m : PeerHandleMapForClient} (h : m.NoNull) (s : Bytes) (n : Nat) :
    m.map.keys.countP (fun k => k ∈ slots s n) + m.freeSlots s n = n := by
  have hkey : ∀ k, (m.fixGet k).isSome = true ↔ k ∈ m.map.keys := by
    intro k
    rw [h.mem_keys_iff, Option.isSome_iff_ne_none]
  have hfree : m.freeSlots s n = (slots s n).countP (fun k => ¬ (m.fixGet k).isSome) := by
    apply List.countP_congr
    intro k _
    simp
  have hlength := List.length_eq_countP_add_countP (fun k => (m.fixGet k).isSome) (l := slots s n)
  rw [StdMap.countP_keys_mem (nodup_slots s n) (fun _ => decide_eq_true_iff) hkey, hfree, ← hlength,
    length_slots]

/-- Without null entries, a server is refused exactly when what is foreign to it outnumbers what is free. -/
theorem NoNull.set_refuses_iff {m : PeerHandleMapForClient} (h : m.NoNull) (s : Bytes) (n : Nat)
    (p : Option SessPtr) : (m.set n s p).1 = [] ↔ m.freeSlots s n ≤ m.foreignMatches s n := by
  have hsplit := m.findMatched_split s n
  have hslots := h.keys_add_free s n
  rw [set_eq_nil_iff, Int.ofNat_le]
  omega

end PeerHandleMapForClient

/-- A call of the registry that can change it, for a session that is not null. `fix_get` and `simple_get` only
    read. -/
inductive RegistryCall where
  | set (s : Bytes) (p : SessPtr)
  | fixSet (s id : Bytes) (p : SessPtr)
  | get (s : Bytes) (rand : Nat)
  | erase (s id : Bytes)
  | eraseById (id : Bytes)
  | closeAll

namespace RegistryCall

/-- The registry after the call. -/
def apply (connectCount : Int) (m : PeerHandleMapForClient) : RegistryCall → PeerHandleMapForClient
  | set s p       => (m.set connectCount s (some p)).2
  | fixSet s id p => (m.fixSet s id (some p)).2
  | get s rand    => (m.get s rand).2
  | erase s id    => m.erase s id
  | eraseById id  => m.eraseById id
  | closeAll      => m.closeAll

/-- The registry after a run of calls. -/
def runFrom (connectCount : Int) (m : PeerHandleMapForClient) (cs : List RegistryCall) :
    PeerHandleMapForClient := cs.foldl (apply connectCount) m

open PeerHandleMapForClient

/-- No call leaves a null entry behind. -/
theorem noNull_apply {m : PeerHandleMapForClient} (h : m.NoNull) (connectCount : Int) (c : RegistryCall) :
    (c.apply connectCount m).NoNull := by
  cases c with
  | set s p => exact h.set connectCount s p
  | fixSet s id p =>
      by_cases hempty : s = [] ∨ id = []
      · simpa only [apply, fixSet_refused hempty] using h
      · obtain ⟨hs, hid⟩ := not_or.mp hempty
        simpa only [apply, fixSet_eq hs hid] using h.assign id p _
  | get s rand =>
      intro k
      simpa only [apply, map_get] using h k
  | erase s id => exact h.erase s id
  | eraseById id =>
      show (m.eraseById id).NoNull
      rcases eraseById_cases m id with ⟨s, heq⟩ | heq
      · rw [heq]
        exact h.erase s id
      · rw [heq]
        exact h
  | closeAll => exact NoNull.empty

theorem noNull_run {m : PeerHandleMapForClient} (h : m.NoNull) (connectCount : Int) (cs : List RegistryCall) :
    (runFrom connectCount m cs).NoNull := by
  induction cs generalizing m with
  | nil => exact h
  | cons c cs ih => exact ih (noNull_apply h connectCount c)

/-- **`set` refuses only when full, or when foreign keys crowd the server out.** After any run of calls, a
    refusal means that all slots of the server are bound exactly if no slot is free, or fewer keys are foreign
    to the server than slots are free. -/
theorem set_refuses_when_full_iff (n : Nat) (cs : List RegistryCall) (s : Bytes) (p : SessPtr) :
    let m := runFrom n .empty cs
    ((m.set n s (some p)).1 = [] → ∀ i < n, m.fixGet (slotId s i) ≠ none) ↔
      m.freeSlots s n = 0 ∨ m.foreignMatches s n < m.freeSlots s n := by
  intro m
  have hnull : m.NoNull := noNull_run NoNull.empty n cs
  rw [hnull.set_refuses_iff, ← freeSlots_eq_zero]
  omega

/-- With one connection to a server on port 800, one on port 80 of the same address is turned away. -/
theorem set_refuses_free_server :
    ¬ ∀ (n : Nat) (cs : List RegistryCall) (s : Bytes) (p : SessPtr), 1 ≤ n →
      ((runFrom n .empty cs).set n s (some p)).1 = [] →
        ∀ i < n, (runFrom n .empty cs).fixGet (slotId s i) ≠ none := by
  intro h
  have hbound := h 1 [.set (ascii "server:10.0.0.1:800") 0] (ascii "server:10.0.0.1:80") 1 (by decide)
    (by decide) 0 (by decide)
  exact hbound (by decide)

end RegistryCall

end BServer
