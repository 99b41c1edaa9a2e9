import Mathlib.Data.List.Perm.Subperm
import BServer.System.Convergence

/-!
# `System.Startup` — which slots startup takes

The heartbeat polls the slots of the configured strings, `server:host:port:0` and on. `init_server_connection`
connects without a slot: `client_session::open` names the server after the remote endpoint of the socket, and
`set` numbers the slot by how many keys contain that name. So the slots that startup takes are a function of the
endpoints alone, one server after the other (`takenAfter`), and `startup_covers_iff` says when they are the ones
that are polled: when the endpoints are, up to order, the configured strings, and no endpoint is found inside a
slot that was taken before its turn.
-/

namespace BServer

open Bytes

/-! ## What startup is for -/

/-- Every name resolves, each to one endpoint, and every connection succeeds. -/
def fixedNetwork (endpointOf : Bytes → Bytes → Bytes × Nat) : Network :=
  ⟨fun _ _ => true, fun host service _ => (false, endpointOf host service), fun _ _ _ => false⟩

section Startup

variable (endpointOf : Bytes → Bytes → Bytes × Nat) (connectCount : Int) (m : ServerMap) (w : World)

/-- The server id that a connection to a listed server gets at startup. -/
def endpointText (server : Bytes) : Option Bytes :=
  match entryOf server with
  | .named _ b c =>
      let (address, port) := endpointOf (cString b) (cString c)
      some (ascii "server:" ++ (address ++ colon :: decimal port))
  | _ => none

/-- Startup leaves every slot that the heartbeat polls bound, and the first iteration connects nothing. -/
def StartupCovers : Prop :=
  let l := initServerConnection (fixedNetwork endpointOf) connectCount m ⟨w, []⟩
  (∀ s ∈ m.servers, ∀ i < connectCount.toNat, l.bound s i ≠ none) ∧
  ∀ a ∈ (heartWork (fixedNetwork endpointOf) connectCount m ⟨l.world, []⟩).acts, ∀ s i x, a ≠ .attempt s i x

end Startup

/-! ## The slots taken, server by server -/

/-- The slots taken after the `n` connections to one more server: those of its endpoint, from the number of
    keys on that contain it. -/
def takenAfter (n : Nat) (taken : List Bytes) (e : Bytes) : List Bytes :=
  let count := taken.countP (fun k => e <:+: k)
  (List.range' count (n - count)).map (slotId e) ++ taken

section Taken

variable {n : Nat} {taken : List Bytes} {e k : Bytes} {es : List Bytes}

theorem mem_takenAfter : k ∈ takenAfter n taken e ↔
    (∃ c, taken.countP (fun k => e <:+: k) ≤ c ∧ c < n ∧ slotId e c = k) ∨ k ∈ taken := by
  unfold takenAfter
  rw [List.mem_append, List.mem_map]
  refine or_congr_left (exists_congr fun c => ?_)
  rw [List.mem_range'_1]
  constructor
  · rintro ⟨hc, rfl⟩
    exact ⟨hc.1, by omega, rfl⟩
  · rintro ⟨hle, hlt, rfl⟩
    exact ⟨⟨hle, by omega⟩, rfl⟩

/-- Slots of other servers are neither taken nor given back. -/
theorem mem_takenAfter_other {s : Bytes} (hs : s ≠ e) (c : Nat) :
    slotId s c ∈ takenAfter n taken e ↔ slotId s c ∈ taken := by
  rw [mem_takenAfter, or_iff_right]
  rintro ⟨d, _, _, hd⟩
  exact hs (slotId_inj hd).1.symm

theorem mem_foldl_other {s : Bytes} (hs : s ∉ es) (c : Nat) :
    slotId s c ∈ es.foldl (takenAfter n) taken ↔ slotId s c ∈ taken := by
  induction es generalizing taken with
  | nil => exact Iff.rfl
  | cons e es ih =>
      rw [List.foldl_cons, ih (fun h => hs (List.mem_cons_of_mem e h)),
        mem_takenAfter_other (List.ne_of_not_mem_cons hs)]

/-- A server of which no slot was taken gets all of its slots exactly when its endpoint is found in no slot that
    was. -/
theorem all_takenAfter_iff (hn : 1 ≤ n) (hfresh : ∀ c, slotId e c ∉ taken) :
    (∀ c < n, slotId e c ∈ takenAfter n taken e) ↔ ∀ k ∈ taken, ¬ e <:+: k := by
  have hzero : (taken.countP (fun k => decide (e <:+: k)) = 0) ↔ ∀ k ∈ taken, ¬ e <:+: k := by
    simp [List.countP_eq_zero]
  rw [← hzero]
  constructor
  · intro h
    -- the slot numbered 0 is the one that is missed
    rcases mem_takenAfter.mp (h 0 hn) with ⟨c, hle, _, hc⟩ | hold
    · obtain ⟨_, rfl⟩ := slotId_inj hc
      exact Nat.le_zero.mp hle
    · exact absurd hold (hfresh 0)
  · intro h c hc
    exact mem_takenAfter.mpr (Or.inl ⟨c, by rw [h]; exact Nat.zero_le c, hc, rfl⟩)

/-- **When every slot is taken.** For distinct endpoints, startup takes all their slots exactly when no endpoint
    is found in a slot that was taken before. -/
theorem all_taken_iff (hn : 1 ≤ n) (hnodup : es.Nodup) (hfresh : ∀ e ∈ es, ∀ c, slotId e c ∉ taken) :
    (∀ e ∈ es, ∀ c < n, slotId e c ∈ es.foldl (takenAfter n) taken) ↔
      (∀ e ∈ es, ∀ k ∈ taken, ¬ e <:+: k) ∧ es.Pairwise (fun a b => ∀ c < n, ¬ b <:+: slotId a c) := by
  induction es generalizing taken with
  | nil => simp
  | cons e es ih =>
      obtain ⟨he, hnodup⟩ := List.nodup_cons.mp hnodup
      have hfresh' : ∀ b ∈ es, ∀ c, slotId b c ∉ takenAfter n taken e := by
        intro b hb c
        rw [mem_takenAfter_other (ne_of_mem_of_not_mem hb he)]
        exact hfresh b (List.mem_cons_of_mem e hb) c
      have hhead : (∀ c < n, slotId e c ∈ (e :: es).foldl (takenAfter n) taken) ↔ ∀ k ∈ taken, ¬ e <:+: k := by
        rw [← all_takenAfter_iff hn (hfresh e List.mem_cons_self)]
        exact forall₂_congr fun c _ => mem_foldl_other he c
      rw [List.forall_mem_cons, hhead, List.foldl_cons, ih hnodup hfresh', List.forall_mem_cons,
        List.pairwise_cons, and_assoc]
      refine and_congr_right fun hnone => ?_
      -- the first server got all its slots, so the rest must not be found in any of these either
      have hcount : taken.countP (fun k => decide (e <:+: k)) = 0 := by
        simpa [List.countP_eq_zero] using hnone
      rw [← and_assoc]
      refine and_congr_left fun _ => ?_
      constructor
      · intro h
        refine ⟨fun b hb k hk => h b hb k (mem_takenAfter.mpr (Or.inr hk)), fun b hb c hc => ?_⟩
        exact h b hb _ (mem_takenAfter.mpr (Or.inl ⟨c, by rw [hcount]; exact Nat.zero_le c, hc, rfl⟩))
      · rintro ⟨hold, hnew⟩ b hb k hk
        rcases mem_takenAfter.mp hk with ⟨c, _, hc, rfl⟩ | hk
        · exact hnew b hb c hc
        · exact hold b hb k hk

end Taken

/-! ## The registry during startup -/

/-- The registry holds sessions in exactly the slots of a list, and no null entries. -/
structure Taken (m : PeerHandleMapForClient) (taken : List Bytes) : Prop where
  keys  : m.map.keys.Perm taken
  bound : ∀ k ∈ taken, m.fixGet k ≠ none
  slots : ∀ k ∈ taken, ∃ s i, k = slotId s i

namespace Taken

variable {m m' : PeerHandleMapForClient} {taken : List Bytes} {k : Bytes}

theorem empty : Taken .empty [] where
  keys := List.Perm.refl _
  bound := fun _ h => by cases h
  slots := fun _ h => by cases h

theorem unbound (h : Taken m taken) (hk : k ∉ taken) : m.fixGet k = none := by
  have hkey : k ∉ m.map.keys := fun hmem => hk (h.keys.mem_iff.mp hmem)
  have hfind : m.map.find k = none := not_not.mp (fun hne => hkey (StdMap.mem_keys.mpr hne))
  rw [PeerHandleMapForClient.fixGet_eq_valueAt, StdMap.valueAt, hfind]
  rfl

theorem bound_iff (h : Taken m taken) : m.fixGet k ≠ none ↔ k ∈ taken :=
  ⟨fun hne => not_not.mp (fun hk => hne (h.unbound hk)), h.bound k⟩

theorem findMatched (h : Taken m taken) (e : Bytes) :
    m.findMatched e = taken.countP (fun k => decide (e <:+: k)) := h.keys.countP_eq _

/-- Binding a free slot. -/
theorem assign (h : Taken m taken) {s : Bytes} {i : Nat} (hfree : slotId s i ∉ taken) {x : SessPtr}
    (hmap : m'.map = m.map.assign (slotId s i) (some x)) : Taken m' (slotId s i :: taken) where
  keys := by
    have hkey : slotId s i ∉ m.map.keys := fun hmem => hfree (h.keys.mem_iff.mp hmem)
    rw [hmap, StdMap.keys_assign_new hkey]
    exact h.keys.cons _
  bound := by
    intro k hk
    rw [PeerHandleMapForClient.fixGet_eq_valueAt, hmap, StdMap.valueAt_assign]
    split
    · exact Option.some_ne_none x
    · next hne =>
        rw [← PeerHandleMapForClient.fixGet_eq_valueAt]
        exact h.bound k ((List.mem_cons.mp hk).resolve_left hne)
  slots := by
    intro k hk
    rcases List.mem_cons.mp hk with rfl | hk
    · exact ⟨s, i, rfl⟩
    · exact h.slots k hk

/-- What a refused session erases, the empty id, is no key. -/
theorem erase_nil (h : Taken m taken) (s : Bytes) : Taken (m.erase s []) taken where
  keys := by
    have hkey : [] ∉ m.map.keys := by
      intro hmem
      obtain ⟨t, i, hid⟩ := h.slots [] (h.keys.mem_iff.mp hmem)
      exact slotId_ne_nil t i hid.symm
    rw [show (m.erase s []).map = m.map.erase [] from rfl, StdMap.keys_erase_absent hkey]
    exact h.keys
  bound := by
    intro k hk
    rw [PeerHandleMapForClient.fixGet_erase, if_neg]
    · exact h.bound k hk
    · rintro rfl
      obtain ⟨t, i, hid⟩ := h.slots [] hk
      exact slotId_ne_nil t i hid.symm
  slots := h.slots

theorem perm (h : Taken m taken) {taken' : List Bytes} (hperm : taken.Perm taken') : Taken m taken' where
  keys := h.keys.trans hperm
  bound := fun k hk => h.bound k (hperm.mem_iff.mpr hk)
  slots := fun k hk => h.slots k (hperm.mem_iff.mpr hk)

end Taken

/-- `j` connections to a server into the `n` slots it may have, from the slot `count` on. -/
def filling (count n j : Nat) (taken : List Bytes) (e : Bytes) : List Bytes :=
  (List.range' count (min j (n - count))).map (slotId e) ++ taken

section Filling

variable {connectCount : Int} {count j : Nat} {taken : List Bytes} {e : Bytes}

/-- Every slot of a server counts towards its matches. -/
theorem countP_filling (hcount : taken.countP (fun k => decide (e <:+: k)) = count) (n : Nat) :
    (filling count n j taken e).countP (fun k => decide (e <:+: k)) = min j (n - count) + count := by
  unfold filling
  rw [List.countP_append, hcount, List.countP_map, List.countP_eq_length.mpr, List.length_range']
  intro c _
  exact decide_eq_true (infix_slotId e c)

/-- Connecting once more takes the next slot, as long as there is one. -/
theorem Taken.connect {r : Registries} {address : Bytes} {port : Nat}
    (he : e = ascii "server:" ++ (address ++ colon :: decimal port))
    (hcount : taken.countP (fun k => decide (e <:+: k)) = count) (hfresh : ∀ c, slotId e c ∉ taken)
    (h : Taken r.peerMapClient (filling count connectCount.toNat j taken e)) (x : SessPtr) :
    Taken (BringUp.built (.connect false) connectCount x address port .new r).2.peerMapClient
      (filling count connectCount.toNat (j + 1) taken e) := by
  have hmatched : r.peerMapClient.findMatched e = min j (connectCount.toNat - count) + count := by
    rw [h.findMatched, countP_filling hcount]
  rw [BringUp.built_set_registry, ← he]
  by_cases hroom : count + j < connectCount.toNat
  · -- the next number is that of a free slot
    have hnow : min j (connectCount.toNat - count) = j := by omega
    have hnext : min (j + 1) (connectCount.toNat - count) = j + 1 := by omega
    have hfree : slotId e (r.peerMapClient.findMatched e) ∉ filling count connectCount.toNat j taken e := by
      rw [hmatched, hnow]
      intro hmem
      rcases List.mem_append.mp hmem with hmem | hmem
      · obtain ⟨c, hc, heq⟩ := List.mem_map.mp hmem
        have hlt := (List.mem_range'_1.mp hc).2
        have := (slotId_inj heq).2
        omega
      · exact hfresh _ hmem
    obtain ⟨hid, hmap⟩ := PeerHandleMapForClient.set_next connectCount (by omega)
      (h.unbound hfree) (some x)
    rw [if_neg (by rw [hid]; exact slotId_ne_nil _ _)]
    refine (h.assign hfree hmap).perm ?_
    unfold filling
    rw [hmatched, hnow, hnext, List.range'_1_concat, List.map_append, List.append_assoc, Nat.add_comm j count]
    exact List.perm_middle.symm
  · have hsame : min (j + 1) (connectCount.toNat - count) = min j (connectCount.toNat - count) := by omega
    rw [PeerHandleMapForClient.set_full (by omega), if_pos rfl]
    unfold filling
    rw [hsame]
    exact h.erase_nil e

end Filling

/-! ## Startup -/

section Visits

variable {endpointOf : Bytes → Bytes → Bytes × Nat} {connectCount : Int} {m : ServerMap} {s e : Bytes}

variable (connectCount) in
/-- A visit at startup: a listed server of the right form is connected without a slot. -/
theorem initVisit_connects (he : endpointText endpointOf s = some e) (i : Nat) (l : Links) :
    ∃ l' address port, initVisit (fixedNetwork endpointOf) connectCount (s, i) l = some l' ∧
      e = ascii "server:" ++ (address ++ colon :: decimal port) ∧
      l'.slots = (BringUp.built (.connect false) connectCount l.world.sessions.length address port .new
        l.world.registries).2.peerMapClient := by
  unfold endpointText at he
  split at he
  · next a b c hentry =>
      cases he
      let ep := endpointOf (cString b) (cString c)
      refine ⟨l.connect connectCount s i (.connect false) ep.1 ep.2, ep.1, ep.2, ?_, rfl, rfl⟩
      unfold initVisit
      simp only [hentry]
      exact if_pos rfl
  · cases he

/-- A visit that returns changed no binding, or connected. -/
theorem initVisit_cases {i : Nat} {l l' : Links}
    (h : initVisit (fixedNetwork endpointOf) connectCount (s, i) l = some l') :
    l' = l ∨ ∃ e, endpointText endpointOf s = some e := by
  unfold initVisit at h
  unfold endpointText
  split at h
  · next a b c hentry =>
      right
      rw [show entryOf s = .named a b c from hentry]
      exact ⟨_, rfl⟩
  · exact Or.inl (Option.some.inj h).symm
  · cases h

variable (connectCount) in
/-- Where no connection is reset a visit throws before it did anything. -/
theorem initServerConnection_fixed (l : Links) :
    initServerConnection (fixedNetwork endpointOf) connectCount m l
      = Sweep.run (initVisit (fixedNetwork endpointOf) connectCount) (m.visits connectCount) l := by
  refine Sweep.runThrowing_eq_run (fun v l hnone => ?_) _ _
  unfold initThrown
  split
  · next a b c hentry =>
      have hform : endpointText endpointOf v.1 ≠ none := by simp [endpointText, hentry]
      obtain ⟨e, he⟩ := Option.ne_none_iff_exists'.mp hform
      obtain ⟨l', _, _, hvisit, _⟩ := initVisit_connects connectCount he v.2 l
      rw [hnone] at hvisit
      cases hvisit
  · rfl

variable (connectCount) in
/-- The visits to one server take its next slots. -/
theorem visits_taken {count : Nat} {taken : List Bytes} (he : endpointText endpointOf s = some e)
    (hcount : taken.countP (fun k => decide (e <:+: k)) = count) (hfresh : ∀ c, slotId e c ∉ taken)
    (is : List Nat) {j : Nat} {l : Links} (h : Taken l.slots (filling count connectCount.toNat j taken e)) :
    Taken (Sweep.run (initVisit (fixedNetwork endpointOf) connectCount) (is.map (fun i => (s, i))) l).slots
      (filling count connectCount.toNat (j + is.length) taken e) := by
  induction is generalizing j l with
  | nil => exact h
  | cons i is ih =>
      obtain ⟨l', address, port, hvisit, htext, hslots⟩ := initVisit_connects connectCount he i l
      rw [List.map_cons, Sweep.run_cons_some hvisit, List.length_cons, Nat.add_comm is.length, ← Nat.add_assoc]
      refine ih ?_
      rw [hslots]
      exact Taken.connect htext hcount hfresh h _

variable (connectCount) in
/-- **What startup takes.** Server by server, the registry holds the slots that `takenAfter` says. -/
theorem startup_taken {servers taken : List Bytes} (hform : ∀ s ∈ servers, endpointText endpointOf s ≠ none)
    (hnodup : (servers.filterMap (endpointText endpointOf)).Nodup)
    (hfresh : ∀ e ∈ servers.filterMap (endpointText endpointOf), ∀ c, slotId e c ∉ taken) {l : Links}
    (h : Taken l.slots taken) :
    Taken (Sweep.run (initVisit (fixedNetwork endpointOf) connectCount)
        (servers.flatMap (fun s => (List.range connectCount.toNat).map (fun i => (s, i)))) l).slots
      ((servers.filterMap (endpointText endpointOf)).foldl (takenAfter connectCount.toNat) taken) := by
  induction servers generalizing taken l with
  | nil => exact h
  | cons s servers ih =>
      obtain ⟨e, he⟩ := Option.ne_none_iff_exists'.mp (hform s List.mem_cons_self)
      rw [List.filterMap_cons_some he] at hnodup hfresh ⊢
      obtain ⟨hother, hnodup⟩ := List.nodup_cons.mp hnodup
      have hreturns : ∀ v ∈ (List.range connectCount.toNat).map (fun i => (s, i)), ∀ l,
          initVisit (fixedNetwork endpointOf) connectCount v l ≠ none := by
        intro v hv l
        obtain ⟨i, _, rfl⟩ := List.mem_map.mp hv
        obtain ⟨l', _, _, hvisit, _⟩ := initVisit_connects connectCount he i l
        rw [hvisit]
        exact Option.some_ne_none l'
      have hblock := visits_taken connectCount he rfl (hfresh e List.mem_cons_self) (List.range connectCount.toNat)
        (j := 0) (l := l) (by simpa [filling] using h)
      rw [Nat.zero_add, List.length_range] at hblock
      rw [List.flatMap_cons, Sweep.run_append hreturns, List.foldl_cons]
      refine ih (fun t ht => hform t (List.mem_cons_of_mem s ht)) hnodup ?_ ?_
      · intro b hb c
        rw [mem_takenAfter_other (ne_of_mem_of_not_mem hb hother)]
        exact hfresh b (List.mem_cons_of_mem e hb) c
      · rw [show takenAfter connectCount.toNat taken e = filling (taken.countP (fun k => decide (e <:+: k)))
          connectCount.toNat connectCount.toNat taken e by
            unfold takenAfter filling
            rw [Nat.min_eq_right (Nat.sub_le _ _)]]
        exact hblock

/-- Whatever is bound after startup is a slot of the endpoint of some listed server. -/
theorem bound_startup {w : World} (hempty : w.registries.peerMapClient = .empty) {k : Bytes}
    (hk : (initServerConnection (fixedNetwork endpointOf) connectCount m ⟨w, []⟩).slots.fixGet k ≠ none) :
    ∃ s ∈ m.servers, ∃ e, endpointText endpointOf s = some e ∧ ∃ c, k = slotId e c := by
  revert k
  rw [initServerConnection_fixed]
  refine Sweep.run_induction (P := fun l : Links => ∀ {k}, l.slots.fixGet k ≠ none →
    ∃ s ∈ m.servers, ∃ e, endpointText endpointOf s = some e ∧ ∃ c, k = slotId e c) ?_ ?_
  · intro k hk
    refine absurd ?_ hk
    show w.registries.peerMapClient.fixGet k = none
    rw [hempty]
    rfl
  · rintro ⟨s, i⟩ hv l l' hold hvisit k hk
    rcases initVisit_cases hvisit with rfl | ⟨e, he⟩
    · exact hold hk
    · obtain ⟨l'', address, port, hvisit', htext, hslots⟩ := initVisit_connects connectCount he i l
      rw [hvisit] at hvisit'
      cases hvisit'
      rw [hslots, BringUp.built_client _ _ _ _ _ _ rfl] at hk
      split at hk
      · next hid =>
          have hopen : (BringUp.built (.connect false) connectCount l.world.sessions.length address port .new
              l.world.registries).1.shut = false := by
            cases hshut : (BringUp.built (.connect false) connectCount l.world.sessions.length address port .new
              l.world.registries).1.shut with
            | false => rfl
            | true =>
                rw [Session.boundAfter, hshut] at hk
                exact absurd rfl hk
          rcases BringUp.built_client_id _ _ _ _ _ _ rfl hopen with ⟨_, _, hup⟩ | ⟨c, hc⟩
          · cases hup
          · exact ⟨s, (ServerMap.mem_visits.mp hv).1, e, he, c, by rw [hid, hc, htext]⟩
      · exact hold hk

end Visits

/-- If a partial function on a list without repetitions hits every element, it permutes the list. -/
theorem filterMap_perm {α : Type} {l : List α} {f : α → Option α} (hnodup : l.Nodup)
    (hhits : ∀ a ∈ l, some a ∈ l.map f) : (∀ a ∈ l, f a ≠ none) ∧ (l.filterMap f).Perm l := by
  have hsub : (l.map some) ⊆ l.map f := by
    intro b hb
    obtain ⟨a, ha, rfl⟩ := List.mem_map.mp hb
    exact hhits a ha
  have hperm : (l.map some).Perm (l.map f) :=
    (List.subperm_of_subset (hnodup.map (fun _ _ => Option.some.inj)) hsub).perm_of_length_le (by simp)
  constructor
  · intro a ha hnone
    have hmem : f a ∈ l.map some := hperm.mem_iff.mpr (List.mem_map_of_mem ha)
    obtain ⟨b, _, hb⟩ := List.mem_map.mp hmem
    rw [hnone] at hb
    cases hb
  · have := (hperm.filterMap id).symm
    simpa [List.filterMap_map] using this

/-- **Startup covers what the heartbeat polls**, from an empty registry and for distinct configured strings, if
    and only if every configured string is the text of an endpoint that a configured string resolves to, and no
    such text is found in a slot of an endpoint that comes before it. -/
theorem startup_covers_iff (endpointOf : Bytes → Bytes → Bytes × Nat) (connectCount : Int) (m : ServerMap)
    (w : World) (hcount : 1 ≤ connectCount) (hdistinct : m.servers.Nodup)
    (hempty : w.registries.peerMapClient = .empty) :
    StartupCovers endpointOf connectCount m w ↔
      (∀ s ∈ m.servers, some s ∈ m.servers.map (endpointText endpointOf)) ∧
      (m.servers.filterMap (endpointText endpointOf)).Pairwise
        (fun a b => ∀ c < connectCount.toNat, ¬ b <:+: slotId a c) := by
  have hpos : 1 ≤ connectCount.toNat := by omega
  -- with the endpoints a permutation of the configured strings, what is bound is what `takenAfter` says
  have hcovered : (∀ s ∈ m.servers, some s ∈ m.servers.map (endpointText endpointOf)) →
      ((∀ s ∈ m.servers, ∀ i < connectCount.toNat, (initServerConnection (fixedNetwork endpointOf) connectCount m
          ⟨w, []⟩).bound s i ≠ none) ↔
        (m.servers.filterMap (endpointText endpointOf)).Pairwise
          (fun a b => ∀ c < connectCount.toNat, ¬ b <:+: slotId a c)) := by
    intro hhits
    obtain ⟨hform, hperm⟩ := filterMap_perm hdistinct hhits
    have hnodup := hperm.nodup_iff.mpr hdistinct
    have hfresh : ∀ e ∈ m.servers.filterMap (endpointText endpointOf), ∀ c, slotId e c ∉ ([] : List Bytes) :=
      fun _ _ _ h => by cases h
    have hstart : Taken (Links.slots ⟨w, []⟩) [] := by
      rw [Links.slots, hempty]
      exact Taken.empty
    have htaken := startup_taken connectCount hform hnodup hfresh hstart
    have hall := all_taken_iff hpos hnodup hfresh
    rw [and_iff_right (fun _ _ _ h => by cases h)] at hall
    rw [← hall, initServerConnection_fixed]
    constructor
    · intro h e he c hc
      exact htaken.bound_iff.mp (h e (hperm.mem_iff.mp he) c hc)
    · intro h s hs i hi
      exact htaken.bound_iff.mpr (h s (hperm.mem_iff.mpr hs) i hi)
  constructor
  · rintro ⟨hbound, _⟩
    have hhits : ∀ s ∈ m.servers, some s ∈ m.servers.map (endpointText endpointOf) := by
      intro s hs
      obtain ⟨t, ht, e, he, c, hc⟩ := bound_startup hempty (hbound s hs 0 hpos)
      obtain ⟨rfl, _⟩ := slotId_inj hc
      exact List.mem_map.mpr ⟨t, ht, he⟩
    exact ⟨hhits, (hcovered hhits).mp hbound⟩
  · rintro ⟨hhits, hapart⟩
    have hbound := (hcovered hhits).mpr hapart
    refine ⟨hbound, fun a ha s i x heq => ?_⟩
    obtain ⟨t, j, y, rfl⟩ := (heartWork_idle (fun v hv =>
      hbound v.1 (ServerMap.mem_visits.mp hv).1 v.2 (ServerMap.mem_visits.mp hv).2)).2 a ha
    cases heq

/-! ### Ports that begin alike, and a host name -/

/-- Every host name is one of this machine; addresses stand for themselves. The port is `80` or `800`. -/
def hostsFile (host service : Bytes) : Bytes × Nat :=
  (if host = ascii "localhost" then ascii "127.0.0.1" else host, if service = ascii "80" then 80 else 800)

def shortFirst : ServerMap :=
  ⟨[(1, ascii "server:10.0.0.1:80"), (2, ascii "server:10.0.0.1:800")], by decide⟩

def longFirst : ServerMap :=
  ⟨[(1, ascii "server:10.0.0.1:800"), (2, ascii "server:10.0.0.1:80")], by decide⟩

def namedHost : ServerMap := ⟨[(1, ascii "server:localhost:80")], by decide⟩

theorem startup_covers_short_first : StartupCovers hostsFile 1 shortFirst .start :=
  (startup_covers_iff hostsFile 1 shortFirst .start (by decide) (by decide) rfl).mpr
    ⟨by decide, by decide⟩

/-- The slots of a host name are never taken; nor is the first slot of a port that begins a port before it. -/
theorem startup_misses_slots :
    ¬ StartupCovers hostsFile 1 namedHost .start ∧ ¬ StartupCovers hostsFile 1 longFirst .start := by
  have hnamed : (initServerConnection (fixedNetwork hostsFile) 1 namedHost ⟨.start, []⟩).bound
      (ascii "server:localhost:80") 0 = none := by decide
  have hlong : (initServerConnection (fixedNetwork hostsFile) 1 longFirst ⟨.start, []⟩).bound
      (ascii "server:10.0.0.1:80") 0 = none := by decide
  constructor
  · rintro ⟨hbound, _⟩
    exact hbound (ascii "server:localhost:80") (by decide) 0 (by decide) hnamed
  · rintro ⟨hbound, _⟩
    exact hbound (ascii "server:10.0.0.1:80") (by decide) 0 (by decide) hlong

end BServer
