import BServer.Registry.SlotTable
import BServer.System.Heartbeat

/-!
# `System.Convergence` — what the heartbeat is for

Where every name resolves, every connection succeeds and nothing else happens, one iteration of the heartbeat
leaves every slot of every listed server bound, and listed once; what was bound keeps its session, and what
belongs to no listed server is not touched. A second iteration then finds every slot bound: it posts keepalives
and changes nothing.

The state may be any in which the two containers of the registry are `Consistent`, and a server may be listed
more than once: its slots are then bound at its first turn.
-/

namespace BServer

open Bytes

theorem entryOf_named {server a b c : Bytes} (h : entryOf server = .named a b c) :
    a ++ colon :: b ++ colon :: c = server := by
  unfold entryOf at h
  split at h
  · next hsplit =>
      cases h
      have hjoin : List.intercalate [colon] (server.splitOn colon) = server := List.intercalate_splitOn colon
      rw [hsplit] at hjoin
      rw [← hjoin]
      simp [List.intercalate]
  · cases h
  · cases h

/-- Every name resolves, and every connection succeeds. -/
structure Network.Sound (net : Network) : Prop where
  resolves : ∀ b c, net.resolves b c = true
  connects : ∀ b c x, (net.connect b c x).1 = false

/-- The registry of outbound sessions. -/
def Links.slots (l : Links) : PeerHandleMapForClient := l.world.registries.peerMapClient

section Iteration

variable {net : Network} {connectCount : Int} {m : ServerMap} {l : Links} {s : Bytes} {i : Nat}

/-- Connecting for a slot whose name resolves. -/
theorem connectSlot_eq {a b c : Bytes} {v : Bytes × Nat}
    (hres : net.resolves (cString b) (cString c) = true) :
    connectSlot net connectCount a b c v l = some (l.connect connectCount v.1 v.2
      (.connectFixId (net.connect (cString b) (cString c) l.world.sessions.length).1
        (a ++ colon :: b ++ colon :: c) (slotId v.1 v.2))
      (net.connect (cString b) (cString c) l.world.sessions.length).2.1
      (net.connect (cString b) (cString c) l.world.sessions.length).2.2) := by
  rw [connectSlot, if_pos hres]

variable (connectCount) in
/-- An unbound slot of a `server:host:port` is bound by its visit, with one `fix_set`. -/
theorem heartVisit_binds (hnet : net.Sound) {a b c : Bytes} (hentry : entryOf s = .named a b c)
    (hbound : l.bound s i = none) :
    ∃ l', heartVisit net connectCount (s, i) l = some l' ∧
      l'.slots = (l.slots.fixSet s (slotId s i) (some l.world.sessions.length)).2 := by
  have hs : s ≠ [] := by
    rintro rfl
    cases hentry
  have hvisit : heartVisit net connectCount (s, i) l = connectSlot net connectCount a b c (s, i) l := by
    unfold heartVisit
    simp only [hbound, hentry]
  rw [hvisit, connectSlot_eq (hnet.resolves _ _), hnet.connects, entryOf_named hentry]
  exact ⟨_, rfl, BringUp.built_fix_registry connectCount l.world.sessions.length _ _ .new
    l.world.registries hs (slotId_ne_nil s i)⟩

/-- A bound slot only gets its keepalive. -/
theorem heartVisit_bound {x : SessPtr} (hbound : l.bound s i = some x) :
    heartVisit net connectCount (s, i) l = some (l.beat s i x) := by
  unfold heartVisit
  simp only [hbound]

/-- **What an iteration preserves**, from the registry `r` it started on. -/
structure Converging (m : ServerMap) (r : PeerHandleMapForClient) (l : Links) : Prop where
  consistent : Consistent l.slots
  kept       : ∀ k x, r.fixGet k = some x → l.slots.fixGet k = some x
  others     : ∀ k, (∀ s ∈ m.servers, ∀ i, k ≠ slotId s i) → l.slots.map.find k = r.map.find k
  unlisted   : ∀ t, t ∉ m.servers → l.slots.listed t = r.listed t

theorem Converging.visit (hnet : net.Sound) {r : PeerHandleMapForClient} (h : Converging m r l)
    (hs : s ∈ m.servers) {a b c : Bytes} (hentry : entryOf s = .named a b c) :
    ∃ l', heartVisit net connectCount (s, i) l = some l' ∧ Converging m r l' ∧ l'.bound s i ≠ none := by
  cases hbound : l.bound s i with
  | some x =>
      refine ⟨l.beat s i x, heartVisit_bound hbound, ⟨h.consistent, h.kept, h.others, h.unlisted⟩, ?_⟩
      show l.bound s i ≠ none
      rw [hbound]
      exact Option.some_ne_none x
  | none =>
      have hne : s ≠ [] := by
        rintro rfl
        cases hentry
      obtain ⟨l', hl', hslots⟩ := heartVisit_binds connectCount hnet hentry hbound
      refine ⟨l', hl', ⟨?_, ?_, ?_, ?_⟩, ?_⟩
      · rw [hslots]
        exact h.consistent.fixSet hne i _
      · intro k x hk
        rw [hslots, PeerHandleMapForClient.fixGet_fixSet hne (slotId_ne_nil s i), if_neg]
        · exact h.kept k x hk
        · rintro rfl
          have hnow := h.kept _ x hk
          rw [show l.slots.fixGet (slotId s i) = none from hbound] at hnow
          cases hnow
      · intro k hk
        rw [hslots, PeerHandleMapForClient.find_fixSet hne (slotId_ne_nil s i), if_neg (hk s hs i)]
        exact h.others k hk
      · intro t ht
        rw [hslots, PeerHandleMapForClient.listed_fixSet hne (slotId_ne_nil s i), if_neg]
        · exact h.unlisted t ht
        · rintro rfl
          exact ht hs
      · show l'.slots.fixGet (slotId s i) ≠ none
        rw [hslots, PeerHandleMapForClient.fixGet_fixSet hne (slotId_ne_nil s i), if_pos rfl]
        exact Option.some_ne_none _

/-- A visit unbinds nothing. -/
theorem bound_heartVisit {l' : Links} {u v : Bytes × Nat} (hnet : net.Sound)
    (hentry : ∃ a b c, entryOf v.1 = .named a b c) (hu : l.bound u.1 u.2 ≠ none)
    (hl' : heartVisit net connectCount v l = some l') : l'.bound u.1 u.2 ≠ none := by
  obtain ⟨s, i⟩ := v
  obtain ⟨a, b, c, hentry⟩ := hentry
  cases hbound : l.bound s i with
  | some x =>
      rw [heartVisit_bound hbound] at hl'
      cases hl'
      exact hu
  | none =>
      have hne : s ≠ [] := by
        rintro rfl
        cases hentry
      obtain ⟨l'', hl'', hslots⟩ := heartVisit_binds connectCount hnet hentry hbound
      rw [hl''] at hl'
      cases hl'
      show l'.slots.fixGet (slotId u.1 u.2) ≠ none
      rw [hslots, PeerHandleMapForClient.fixGet_fixSet hne (slotId_ne_nil s i)]
      split
      · exact Option.some_ne_none _
      · exact hu

/-! ## Two iterations -/

/-- The slots the heartbeat looks at. -/
theorem visits_named (hform : ∀ s ∈ m.servers, ∃ host port, s.splitOn colon = [ascii "server", host, port])
    {v : Bytes × Nat} (hv : v ∈ m.visits connectCount) : v.1 ∈ m.servers ∧ ∃ a b c, entryOf v.1 = .named a b c := by
  obtain ⟨s, i⟩ := v
  have hs := (ServerMap.mem_visits.mp hv).1
  obtain ⟨host, port, hsplit⟩ := hform s hs
  refine ⟨hs, ascii "server", host, port, ?_⟩
  rw [entryOf, hsplit]

/-- Where every slot is bound, an iteration posts keepalives and changes nothing. -/
theorem heartWork_idle (hbound : ∀ v ∈ m.visits connectCount, l.bound v.1 v.2 ≠ none) :
    (heartWork net connectCount m ⟨l.world, []⟩).world = l.world ∧
    ∀ a ∈ (heartWork net connectCount m ⟨l.world, []⟩).acts, ∃ s i x, a = .beat s i x heartFrame := by
  refine Sweep.run_induction
    (P := fun l' : Links => l'.world = l.world ∧ ∀ a ∈ l'.acts, ∃ s i x, a = LinkAct.beat s i x heartFrame)
    ⟨rfl, fun a ha => by cases ha⟩ ?_
  rintro ⟨s, i⟩ hv l₁ l₂ ⟨hworld, hacts⟩ hstep
  obtain ⟨x, hx⟩ := Option.ne_none_iff_exists'.mp (hbound _ hv)
  have hx₁ : l₁.bound s i = some x := by
    rw [Links.bound, hworld]
    exact hx
  rw [heartVisit_bound hx₁] at hstep
  cases hstep
  refine ⟨hworld, fun a ha => ?_⟩
  rcases List.mem_append.mp ha with ha | ha
  · exact hacts a ha
  · exact ⟨s, i, x, List.mem_singleton.mp ha⟩

variable (connectCount) in
/-- One iteration binds every slot, and preserves what `Converging` says. -/
theorem heartWork_converges (hnet : net.Sound)
    (hform : ∀ s ∈ m.servers, ∃ host port, s.splitOn colon = [ascii "server", host, port]) (w : World)
    (hcons : Consistent w.registries.peerMapClient) :
    Converging m w.registries.peerMapClient (heartWork net connectCount m ⟨w, []⟩) ∧
    ∀ v ∈ m.visits connectCount, (heartWork net connectCount m ⟨w, []⟩).bound v.1 v.2 ≠ none := by
  have hstart : Converging m w.registries.peerMapClient ⟨w, []⟩ :=
    ⟨hcons, fun _ _ h => h, fun _ _ => rfl, fun _ _ => rfl⟩
  have hvisit : ∀ v ∈ m.visits connectCount, ∀ l, Converging m w.registries.peerMapClient l →
      ∃ l', heartVisit net connectCount v l = some l' ∧ Converging m w.registries.peerMapClient l' ∧
        l'.bound v.1 v.2 ≠ none := by
    intro v hv l h
    obtain ⟨hs, a, b, c, hentry⟩ := visits_named hform hv
    exact h.visit hnet hs hentry
  have hend := Sweep.run_reached (Q := fun v (l : Links) => l.bound v.1 v.2 ≠ none) hstart hvisit
    (fun u v hv l l' _ hu hl' => bound_heartVisit hnet (visits_named hform hv).2 hu hl')
  exact ⟨hend.1, fun v hv => hend.2 v (Or.inr hv)⟩

end Iteration

/-- **The heartbeat converges, and is idempotent.** -/
theorem heartbeat_converges (net : Network) (connectCount : Int) (m : ServerMap) (w : World)
    (hnet : net.Sound)
    (hform : ∀ s ∈ m.servers, ∃ host port, s.splitOn colon = [ascii "server", host, port])
    (hcons : Consistent w.registries.peerMapClient) :
    let r := w.registries.peerMapClient
    let l := heartWork net connectCount m ⟨w, []⟩
    let again := heartWork net connectCount m ⟨l.world, []⟩
    (∀ s ∈ m.servers, ∀ i < connectCount.toNat, l.slots.fixGet (slotId s i) ≠ none ∧
      (l.slots.listed s).count (slotId s i) = 1) ∧
    (∀ k x, r.fixGet k = some x → l.slots.fixGet k = some x) ∧
    (∀ k, (∀ s ∈ m.servers, ∀ i, k ≠ slotId s i) → l.slots.map.find k = r.map.find k) ∧
    (∀ t, t ∉ m.servers → l.slots.listed t = r.listed t) ∧
    again.world = l.world ∧ ∀ a ∈ again.acts, ∃ s i x, a = .beat s i x heartFrame := by
  intro r l again
  obtain ⟨hconv, hbound⟩ := heartWork_converges connectCount hnet hform w hcons
  refine ⟨?_, hconv.kept, hconv.others, hconv.unlisted, heartWork_idle hbound⟩
  intro s hs i hi
  have hslot : l.slots.fixGet (slotId s i) ≠ none := hbound _ (ServerMap.mem_visits.mpr ⟨hs, hi⟩)
  refine ⟨hslot, ?_⟩
  exact List.count_eq_one_of_mem (hconv.consistent.nodup s)
    ((hconv.consistent.listed s _).mpr ⟨⟨i, rfl⟩, hslot⟩)

/-! ### A server that is listed twice -/

/-- A network in which everything works. -/
def openNetwork : Network := ⟨fun _ _ => true, fun host _ _ => (false, host, 9000), fun _ _ _ => false⟩

theorem openNetwork_sound : openNetwork.Sound := ⟨fun _ _ => rfl, fun _ _ _ => rfl⟩

def repeatedServer : ServerMap :=
  ⟨[(1, ascii "server:10.0.0.1:9000"), (2, ascii "server:10.0.0.1:9000")], by decide⟩

theorem heartbeat_converges_repeated :
    let l := heartWork openNetwork 2 repeatedServer ⟨.start, []⟩
    (∀ s ∈ repeatedServer.servers, ∀ i < 2, l.slots.fixGet (slotId s i) ≠ none ∧
      (l.slots.listed s).count (slotId s i) = 1) ∧
    (heartWork openNetwork 2 repeatedServer ⟨l.world, []⟩).world = l.world := by
  have hform : ∀ s ∈ repeatedServer.servers, ∃ host port, s.splitOn colon = [ascii "server", host, port] := by
    intro s hs
    have hs : s = ascii "server:10.0.0.1:9000" := by
      rcases List.mem_cons.mp hs with hs | hs
      · exact hs
      · exact List.mem_singleton.mp hs
    exact ⟨ascii "10.0.0.1", ascii "9000", by rw [hs]; decide⟩
  have h := heartbeat_converges openNetwork 2 repeatedServer .start openNetwork_sound hform
    Agrees.empty.consistent
  exact ⟨h.1, h.2.2.2.2.1⟩

end BServer
