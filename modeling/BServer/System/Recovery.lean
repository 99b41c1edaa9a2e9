import BServer.System.Convergence
import BServer.System.Reconnect

/-!
# `System.Recovery` — how the outbound connections come back

Passes of the heartbeat and of the server-list callback start, look slots up, resolve, connect and register in any
order, against a network that may answer anything, and sessions close at any time, also after another one took
their slot. What all this preserves is `Linked`: the registry's two containers agree, and every outbound session
is named after a slot of its server. So whatever is bound can be used (`Linked.toServer`), and from whatever is
left one pass of the heartbeat that nothing goes wrong in brings every connection back (`links_recover`).

The callback makes no keepalives and skips entries in its own way, but on the maps it builds it is the pass of
the heartbeat otherwise (`servlist_callback_is_a_pass`).
-/

namespace BServer

open Bytes

/-! ## The list the callback leaves -/

/-- The entry of the server map for a server of the list. -/
def ServCfg.address (c : ServCfg) : Bytes := ascii "server:" ++ c.ipaddr ++ colon :: c.port

namespace ServerMap

theorem mem_insertEntry_iff {e b : Int × Bytes} {as : List (Int × Bytes)}
    (h : as.Pairwise (fun a b => a.1 < b.1)) :
    b ∈ insertEntry e as ↔ b ∈ as ∨ (b = e ∧ ∀ a ∈ as, a.1 ≠ e.1) := by
  induction as with
  | nil => simp [insertEntry]
  | cons a as ih =>
      obtain ⟨hhead, htail⟩ := List.pairwise_cons.mp h
      unfold insertEntry
      split
      · next hlt =>
          have hfree : ∀ c ∈ a :: as, c.1 ≠ e.1 := by
            intro c hc
            rcases List.mem_cons.mp hc with rfl | hc
            · omega
            · have := hhead c hc
              omega
          rw [List.mem_cons]
          constructor
          · rintro (rfl | hb)
            · exact Or.inr ⟨rfl, hfree⟩
            · exact Or.inl hb
          · rintro (hb | ⟨rfl, _⟩)
            · exact Or.inr hb
            · exact Or.inl rfl
      · split
        · next hgt =>
            rw [List.mem_cons, List.mem_cons, ih htail, List.forall_mem_cons]
            have hne : a.1 ≠ e.1 := by omega
            constructor
            · rintro (rfl | hb | ⟨rfl, hfree⟩)
              · exact Or.inl (Or.inl rfl)
              · exact Or.inl (Or.inr hb)
              · exact Or.inr ⟨rfl, hne, hfree⟩
            · rintro ((rfl | hb) | ⟨rfl, _, hfree⟩)
              · exact Or.inl rfl
              · exact Or.inr (Or.inl hb)
              · exact Or.inr (Or.inr ⟨rfl, hfree⟩)
        · next hle hge =>
            have heq : a.1 = e.1 := by omega
            constructor
            · exact Or.inl
            · rintro (hb | ⟨_, hfree⟩)
              · exact hb
              · exact absurd heq (hfree a List.mem_cons_self)

/-- What a list of servers adds to a map: for each id that is not taken, the first with it. -/
theorem mem_foldl_insert (servCfgs : List ServCfg) (m : ServerMap) (id : Int) (server : Bytes) :
    (id, server) ∈ (servCfgs.foldl (fun m c => m.insert c.id c.address) m).entries ↔
      (id, server) ∈ m.entries ∨
      ((∀ a ∈ m.entries, a.1 ≠ id) ∧
        ∃ c, servCfgs.find? (fun c => c.id = id) = some c ∧ server = c.address) := by
  induction servCfgs generalizing m with
  | nil => simp
  | cons c cs ih =>
      rw [List.foldl_cons, ih]
      have hmem : ∀ b, b ∈ (m.insert c.id c.address).entries ↔
          b ∈ m.entries ∨ (b = (c.id, c.address) ∧ ∀ a ∈ m.entries, a.1 ≠ c.id) :=
        fun b => mem_insertEntry_iff m.sorted
      by_cases hc : c.id = id
      · subst hc
        rw [List.find?_cons_of_pos (by simp), hmem]
        constructor
        · rintro ((hm | ⟨heq, hfree⟩) | ⟨hnone, _⟩)
          · exact Or.inl hm
          · exact Or.inr ⟨hfree, c, rfl, congrArg Prod.snd heq⟩
          · -- the id is taken by now
            by_cases hfree : ∀ a ∈ m.entries, a.1 ≠ c.id
            · exact absurd rfl (hnone (c.id, c.address) ((hmem _).mpr (Or.inr ⟨rfl, hfree⟩)))
            · exact absurd (fun a ha => hnone a ((hmem a).mpr (Or.inl ha))) hfree
        · rintro (hm | ⟨hfree, d, hd, rfl⟩)
          · exact Or.inl (Or.inl hm)
          · cases hd
            exact Or.inl (Or.inr ⟨rfl, hfree⟩)
      · rw [List.find?_cons_of_neg (by simpa using hc), hmem]
        have hne : ∀ b : Int × Bytes, b.1 = id → b ≠ (c.id, c.address) := by
          rintro b rfl rfl
          exact hc rfl
        constructor
        · rintro ((hm | ⟨heq, _⟩) | ⟨hnone, hd⟩)
          · exact Or.inl hm
          · exact absurd heq (hne _ rfl)
          · exact Or.inr ⟨fun a ha => hnone a ((hmem a).mpr (Or.inl ha)), hd⟩
        · rintro (hm | ⟨hfree, hd⟩)
          · exact Or.inl (Or.inl hm)
          · refine Or.inr ⟨fun a ha => ?_, hd⟩
            rcases (hmem a).mp ha with ha | ⟨rfl, _⟩
            · exact hfree a ha
            · exact hc

theorem mem_refreshed {servCfgs : List ServCfg} {id : Int} {server : Bytes} :
    (id, server) ∈ (refreshed servCfgs).entries ↔
      ∃ c, servCfgs.find? (fun c => c.id = id) = some c ∧ server = c.address := by
  have h := mem_foldl_insert servCfgs empty id server
  simpa [refreshed, empty, ServCfg.address] using h

end ServerMap

/-- An entry the callback makes has at least three parts. -/
theorem entryOf_address (c : ServCfg) : entryOf c.address ≠ .shorter := by
  have hjoin : c.address = ascii "server" ++ colon :: (c.ipaddr ++ colon :: c.port) := by
    simp [ServCfg.address, ascii, colon]
  have hsplit : c.address.splitOn colon
      = ascii "server" :: (c.ipaddr.splitOn colon ++ c.port.splitOn colon) := by
    rw [hjoin, List.splitOn_append_cons_self_of_not_mem (by decide), List.splitOn_append_cons_self]
  obtain ⟨a, as, ha⟩ := List.exists_cons_of_ne_nil (List.splitOn_ne_nil colon c.ipaddr)
  obtain ⟨b, bs, hb⟩ := List.exists_cons_of_ne_nil (List.splitOn_ne_nil colon c.port)
  rw [entryOf, hsplit, ha, hb]
  cases as with
  | nil =>
      cases bs with
      | nil => exact fun h => by cases h
      | cons _ _ => exact fun h => by cases h
  | cons _ as =>
      cases as with
      | nil => exact fun h => by cases h
      | cons _ _ => exact fun h => by cases h

/-! ## The callback is a pass without keepalives -/

/-- Not a keepalive. -/
def LinkAct.links : LinkAct → Bool
  | beat _ _ _ _ => false
  | _            => true

/-- Side by side with a pass of the heartbeat. -/
def Beside (l l' : Links) : Prop := l'.world = l.world ∧ l'.acts = l.acts.filter LinkAct.links

theorem registe_links (conected : Int) (x : SessPtr) :
    ((registe conected).map (LinkAct.register x)).filter LinkAct.links
      = (registe conected).map (LinkAct.register x) := by
  refine List.filter_eq_self.mpr fun a ha => ?_
  obtain ⟨mf, _, rfl⟩ := List.mem_map.mp ha
  rfl

section Beside

variable {net : Network} {connectCount : Int} {l l' : Links} {v : Bytes × Nat}

theorem Beside.bound (h : Beside l l') : l'.bound v.1 v.2 = l.bound v.1 v.2 := by
  rw [Links.bound, Links.bound, h.1]

theorem Beside.connect (h : Beside l l') (up : BringUp) (address : Bytes) (port : Nat) :
    Beside (l.connect connectCount v.1 v.2 up address port) (l'.connect connectCount v.1 v.2 up address port) := by
  constructor
  · show l'.world.bringUp _ _ _ _ = l.world.bringUp _ _ _ _
    rw [h.1]
  · simp only [Links.connect, h.1, h.2, List.filter_append]
    rw [List.filter_cons_of_pos rfl, registe_links]

/-- Connecting a slot, side by side. -/
theorem Beside.connectSlot (h : Beside l l') (a b c : Bytes) :
    (connectSlot net connectCount a b c v l = none ∧ connectSlot net connectCount a b c v l' = none) ∨
    ∃ k k', connectSlot net connectCount a b c v l = some k ∧ connectSlot net connectCount a b c v l' = some k' ∧
      Beside k k' := by
  by_cases hres : net.resolves (cString b) (cString c) = true
  · right
    refine ⟨_, _, connectSlot_eq hres, connectSlot_eq hres, ?_⟩
    rw [h.1]
    exact h.connect _ _ _
  · left
    unfold BServer.connectSlot
    rw [if_neg hres, if_neg hres]
    exact ⟨rfl, rfl⟩

/-- One visit of each, where the callback does not read beyond the parts of the entry. -/
theorem Beside.visit (h : Beside l l') (hentry : entryOf v.1 ≠ .shorter) :
    (heartVisit net connectCount v l = none ∧ callbackVisit net connectCount v l' = none) ∨
    ∃ k k', heartVisit net connectCount v l = some k ∧ callbackVisit net connectCount v l' = some k' ∧
      Beside k k' := by
  unfold heartVisit callbackVisit
  rw [h.bound]
  cases l.bound v.1 v.2 with
  | some x =>
      refine Or.inr ⟨_, l', rfl, rfl, h.1, ?_⟩
      show l'.acts = (l.acts ++ [LinkAct.beat v.1 v.2 x heartFrame]).filter LinkAct.links
      rw [List.filter_append, ← h.2]
      exact (List.append_nil _).symm
  | none =>
      cases hcase : entryOf v.1 with
      | named a b c => exact h.connectSlot a b c
      | longer => exact Or.inr ⟨l, l', rfl, rfl, h⟩
      | shorter => exact absurd hcase hentry

end Beside

/-- **The callback.** It replaces the server map by the list it was called back for, of two servers with one id
    the first, and does what a pass of the heartbeat over that map does, but for the keepalives. An empty list
    changes nothing. No visit of it is to an entry with fewer than three parts, so it never reads a part that is not
    there. -/
theorem servlist_callback_is_a_pass (net : Network) (connectCount : Int) (servCfgs : List ServCfg)
    (m : ServerMap) (w : World) :
    let pass := heartWork net connectCount (ServerMap.refreshed servCfgs) ⟨w, []⟩
    servlistCallback net connectCount servCfgs m ⟨w, []⟩
      = (if servCfgs.isEmpty then (m, ⟨w, []⟩)
         else (ServerMap.refreshed servCfgs, ⟨pass.world, pass.acts.filter LinkAct.links⟩)) ∧
    (∀ id server, (id, server) ∈ (ServerMap.refreshed servCfgs).entries ↔
      ∃ c, servCfgs.find? (fun c => c.id = id) = some c ∧ server = c.address) ∧
    ∀ v ∈ (ServerMap.refreshed servCfgs).visits connectCount, entryOf v.1 ≠ .shorter := by
  intro pass
  have hentry : ∀ v ∈ (ServerMap.refreshed servCfgs).visits connectCount, entryOf v.1 ≠ .shorter := by
    rintro ⟨s, i⟩ hv
    obtain ⟨hs, _⟩ := ServerMap.mem_visits.mp hv
    obtain ⟨⟨id, _⟩, he, rfl⟩ := List.mem_map.mp hs
    obtain ⟨c, _, hc⟩ := ServerMap.mem_refreshed.mp he
    rw [hc]
    exact entryOf_address c
  refine ⟨?_, fun id server => ServerMap.mem_refreshed, hentry⟩
  unfold servlistCallback
  split
  · rfl
  · have hstart : Beside ⟨w, []⟩ ⟨w, []⟩ := ⟨rfl, rfl⟩
    have hvisit : ∀ v ∈ (ServerMap.refreshed servCfgs).visits connectCount, ∀ k k', Beside k k' →
        (heartVisit net connectCount v k = none ∧ callbackVisit net connectCount v k' = none) ∨
        ∃ j j', heartVisit net connectCount v k = some j ∧ callbackVisit net connectCount v k' = some j' ∧
          Beside j j' := fun v hv _ _ h => h.visit (hentry v hv)
    have hend := Sweep.run_sim hstart hvisit
    have heq : ∀ {k k' : Links}, Beside k k' → k' = ⟨k.world, k.acts.filter LinkAct.links⟩ := by
      rintro k ⟨w', acts'⟩ ⟨rfl, rfl⟩
      rfl
    exact congrArg (Prod.mk _) (heq hend)

/-! ## What is bound can be used -/

namespace World

/-- An open outbound session of a server, in slot `i`. -/
def OpenLink (w : World) (server : Bytes) (i : Nat) (x : SessPtr) : Prop :=
  ∃ t : Session, w.sessions[x]? = some t ∧ t.kind = .client ∧ t.shut = false ∧ t.serverId = server ∧
    t.id = slotId server i

/-- **The invariant.** The two containers of the registry agree, what they bind is open, and an outbound session
    goes by a slot of its server. -/
structure Linked (w : World) : Prop where
  consistent : Consistent w.registries.peerMapClient
  live       : w.Live
  named      : ∀ (x : SessPtr) (t : Session), w.sessions[x]? = some t → t.kind = .client →
    t.serverId ≠ [] ∧ ∃ i, t.id = slotId t.serverId i

namespace Linked

variable {w : World} {connectCount : Int}

theorem start : Linked .start where
  consistent := Agrees.empty.consistent
  live := live_start
  named := fun _ _ h => by cases h

/-- The session bound in a slot is one of the server. -/
theorem openLink (h : Linked w) {server : Bytes} {i : Nat} {x : SessPtr} (hb : w.boundSlot server i = some x) :
    w.OpenLink server i x ∧ server ≠ [] := by
  obtain ⟨t, ht, hkind, hid, hopen⟩ := h.live.outbound _ x hb
  obtain ⟨hne, j, hj⟩ := h.named x t ht hkind
  obtain ⟨rfl, _⟩ := slotId_inj (hj.symm.trans hid)
  exact ⟨⟨t, ht, hkind, hopen, rfl, hid⟩, hne⟩

/-- **Reaching a server.** `dispatch_to_server` writes to one open session of the server, whatever `rand()` says,
    unless none of its slots is bound. -/
theorem toServer (h : Linked w) (server : Bytes) (rand : Nat) (mf : MessageFormat) :
    (∃ x i, w.OpenLink server i x ∧
      (w.registries.dispatch rand (.toServer server mf)).1 = [(x, mf)]) ∨
    ((∀ i, w.boundSlot server i = none) ∧ (w.registries.dispatch rand (.toServer server mf)).1 = []) := by
  have hunbound : w.registries.peerMapClient.listed server = [] → ∀ i, w.boundSlot server i = none := by
    intro hl i
    by_contra hne
    have hmem := (h.consistent.listed server (slotId server i)).mpr ⟨⟨i, rfl⟩, hne⟩
    rw [hl] at hmem
    cases hmem
  by_cases hl : w.registries.peerMapClient.listed server = []
  · refine Or.inr ⟨hunbound hl, ?_⟩
    rw [Registries.dispatch]
    split
    · show Registries.writeTo (w.registries.peerMapClient.get server rand).1 mf = []
      rw [PeerHandleMapForClient.get_of_nil hl]
      rfl
    · rfl
  · obtain ⟨k, hk, hget⟩ := PeerHandleMapForClient.get_of_ne_nil hl rand
    obtain ⟨⟨i, rfl⟩, hne⟩ := (h.consistent.listed server k).mp hk
    obtain ⟨x, hx⟩ := Option.ne_none_iff_exists'.mp hne
    obtain ⟨hlink, hserver⟩ := h.openLink (i := i) hx
    refine Or.inl ⟨x, i, hlink, ?_⟩
    have hnonempty : (!server.isEmpty) = true := by simpa using hserver
    rw [Registries.dispatch, if_pos hnonempty]
    show Registries.writeTo (w.registries.peerMapClient.get server rand).1 mf = [(x, mf)]
    rw [hget, hx]
    rfl

/-- A session in another's place, of the same names, or closed. -/
theorem close (h : Linked w) (x : SessPtr) : Linked (w.close x) := by
  cases hx : w.sessions[x]? with
  | none =>
      rw [World.close, hx]
      exact h
  | some s =>
      refine ⟨?_, h.live.close hx, ?_⟩
      · have hreg : (w.close x).registries = (s.close w.registries).2 := by
          rw [World.close_eq hx]
          rfl
        rw [hreg]
        rcases kind_cases s with hk | hk
        · rw [Session.close_server hk]
          exact h.consistent
        · obtain ⟨_, i, hi⟩ := h.named x s hx hk
          have herase : (s.close w.registries).2.peerMapClient
              = w.registries.peerMapClient.erase s.serverId (slotId s.serverId i) := by
            rw [← hi]
            simp only [Session.close, Session.onClose, hk]
          rw [herase]
          exact h.consistent.erase s.serverId i
      · intro y t hy hkind
        rw [World.close_eq hx] at hy
        rcases World.getElem?_set_some hx hy with ⟨_, rfl⟩ | ⟨_, hy⟩
        · exact h.named x s hx hkind
        · exact h.named y t hy hkind

end Linked

end World

/-- A session with a fixed slot keeps the server it was connected for. -/
theorem Session.start_fix_server (connectCount : Int) (x : SessPtr) {s : Session} (r : Registries)
    (hk : s.kind = .client) (hf : s.fixConnect = true) : (s.start connectCount x r).1.serverId = s.serverId := by
  rw [Session.start, Session.doOpen_of_client hk, Session.openClient, if_pos hf]
  dsimp only
  split
  · rfl
  · rfl

namespace BringUp

variable (connectCount : Int) (x : SessPtr) (address : Bytes) (port : Nat) (readMsg : MessageFormat)
  (r : Registries)

theorem built_fix_server (error : Bool) (serverId remoteId : Bytes) :
    (built (.connectFixId error serverId remoteId) connectCount x address port readMsg r).1.serverId
      = serverId := by
  cases error with
  | true => rfl
  | false => exact Session.start_fix_server connectCount x r rfl rfl

/-- Connecting for a slot, if it fails, is one `erase`. -/
theorem built_fix_failed (serverId remoteId : Bytes) :
    (built (.connectFixId true serverId remoteId) connectCount x address port readMsg r).2.peerMapClient
      = r.peerMapClient.erase serverId remoteId := rfl

end BringUp

/-- Connecting for a slot of a server, however it ends. -/
theorem World.Linked.bringUp {w : World} (h : w.Linked) (connectCount : Int) (error : Bool) {server : Bytes}
    (hserver : server ≠ []) (i : Nat) (address : Bytes) (port : Nat) :
    (w.bringUp connectCount (.connectFixId error server (slotId server i)) address port).Linked := by
  refine ⟨?_, h.live.bringUp connectCount _ address port, ?_⟩
  · show Consistent (BringUp.built (.connectFixId error server (slotId server i)) connectCount
      w.sessions.length address port .new w.registries).2.peerMapClient
    cases error with
    | true =>
        rw [BringUp.built_fix_failed]
        exact h.consistent.erase server i
    | false =>
        rw [BringUp.built_fix_registry _ _ _ _ _ _ hserver (slotId_ne_nil server i)]
        exact h.consistent.fixSet hserver i _
  · intro y t hy hkind
    rcases World.sessions_bringUp_cases hy with hy | ⟨rfl, rfl⟩
    · exact h.named y t hy hkind
    · rw [BringUp.built_fix_server, BringUp.built_fix_id]
      exact ⟨hserver, i, rfl⟩

/-! ## Passes, interleaved and alone -/

/-- An entry that is taken apart names itself. -/
theorem named_ne_nil {server a b c : Bytes} (h : entryOf server = .named a b c) : server ≠ [] := by
  rintro rfl
  cases h

/-- A visit, against any network. -/
theorem World.Linked.visit {net : Network} {connectCount : Int} {v : Bytes × Nat} {l l' : Links}
    (h : l.world.Linked) (hs : heartVisit net connectCount v l = some l') : l'.world.Linked := by
  unfold heartVisit at hs
  split at hs
  · cases hs
    exact h
  · split at hs
    · next a b c hentry =>
        by_cases hres : net.resolves (cString b) (cString c) = true
        · rw [connectSlot_eq hres] at hs
          cases hs
          rw [entryOf_named hentry]
          exact h.bringUp connectCount _ (named_ne_nil hentry) v.2 _ _
        · rw [connectSlot, if_neg hres] at hs
          cases hs
    · cases hs
      exact h

theorem World.Linked.heartWork {w : World} (h : w.Linked) (net : Network) (connectCount : Int) (m : ServerMap) :
    (heartWork net connectCount m ⟨w, []⟩).world.Linked :=
  Sweep.run_induction (P := fun l : Links => l.world.Linked) h fun _ _ _ _ hl hs => hl.visit hs

namespace Reconnect

/-- What a pass connects is the slot it is at. -/
def Pass.Sound (p : Pass) : Prop :=
  match p.stage, p.todo with
  | .look, _                          => True
  | .resolved serverId, v :: _        => serverId = v.1 ∧ v.1 ≠ []
  | .connected serverId _ _ _, v :: _ => serverId = v.1 ∧ v.1 ≠ []
  | _, []                             => False

theorem looked_sound (loop : Loop) (bound resolves : Bool) (v : Bytes × Nat) (vs : List (Bytes × Nat)) :
    Pass.Sound (looked loop bound resolves v vs) := by
  unfold looked
  split
  · trivial
  · split
    · next a b c hentry =>
        split
        · exact ⟨entryOf_named hentry, named_ne_nil hentry⟩
        · trivial
    · trivial
    · split
      · trivial
      · trivial

/-- **The invariant.** -/
structure Kept (s : Reconnect) : Prop where
  linked : s.world.Linked
  passes : ∀ p ∈ s.passes, Pass.Sound p

namespace Kept

variable {connectCount : Int} {s s' : Reconnect}

theorem start : Kept .start := ⟨.start, fun _ hp => by cases hp⟩

/-- A pass goes on. -/
theorem setPass (h : Kept s) {w : World} (hw : w.Linked) {i : Nat} {p : Pass} (hp : Pass.Sound p) :
    Kept ⟨w, s.passes.set i p⟩ := by
  refine ⟨hw, fun q hq => ?_⟩
  rcases List.mem_or_eq_of_mem_set hq with hq | rfl
  · exact h.passes q hq
  · exact hp

theorem step {e : Event} (h : Kept s) (hstart : ∀ error address port, e ≠ .startup error address port)
    (hs : Reconnect.step connectCount s e = some s') : Kept s' := by
  cases e with
  | begin loop m =>
      simp only [Reconnect.step] at hs
      split at hs
      · cases hs
      · cases hs
        refine ⟨h.linked, fun q hq => ?_⟩
        rcases List.mem_append.mp hq with hq | hq
        · exact h.passes q hq
        · rw [List.mem_singleton.mp hq]
          trivial
  | look i resolves =>
      simp only [Reconnect.step] at hs
      split at hs
      · cases hs
        exact h.setPass h.linked (looked_sound _ _ _ _ _)
      · cases hs
  | connect i error address port =>
      simp only [Reconnect.step] at hs
      split at hs
      · next loop todo serverId hp =>
          cases hs
          have hsound := h.passes _ (List.mem_of_getElem? hp)
          refine h.setPass h.linked ?_
          cases todo with
          | nil => exact hsound.elim
          | cons v vs => exact hsound
      · cases hs
  | register i =>
      simp only [Reconnect.step] at hs
      split at hs
      · next loop v vs serverId error address port hp =>
          cases hs
          obtain ⟨rfl, hne⟩ := h.passes _ (List.mem_of_getElem? hp)
          exact h.setPass (h.linked.bringUp connectCount error hne v.2 address port) trivial
      · cases hs
  | close x =>
      cases hs
      exact ⟨h.linked.close x, h.passes⟩
  | startup error address port => exact (hstart error address port rfl).elim

end Kept

theorem kept_run {connectCount : Int} {es : List Event} {s : Reconnect}
    (hstart : ∀ e ∈ es, ∀ error address port, e ≠ .startup error address port)
    (hrun : Run.run (step connectCount) start es = some s) : Kept s :=
  Run.run_meets (step connectCount) (I := Kept)
    (A := fun _ e => ∀ error address port, e ≠ Event.startup error address port)
    .start (fun _ _ _ h he hs => h.step he hs) (Run.meets_of_forall _ hstart _) hrun

/-- **The outbound connections come back.** After any run of passes and closes, however they interleaved and
    whatever the network answered: a frame for a server is written to an open session of that server, unless none
    of its slots is bound. And one more pass of the heartbeat, in which every name resolves and every connection
    succeeds, leaves an open session in every slot of every listed server, so that each can be reached. -/
theorem links_recover (connectCount : Int) (es : List Event) (s : Reconnect)
    (hstart : ∀ e ∈ es, ∀ error address port, e ≠ .startup error address port)
    (hrun : Run.run (step connectCount) start es = some s) :
    (∀ server rand mf,
      (∃ x i, s.world.OpenLink server i x ∧
        (s.world.registries.dispatch rand (.toServer server mf)).1 = [(x, mf)]) ∨
      ((∀ i, s.world.boundSlot server i = none) ∧
        (s.world.registries.dispatch rand (.toServer server mf)).1 = [])) ∧
    ∀ (net : Network) (m : ServerMap), net.Sound →
      (∀ server ∈ m.servers, ∃ host port, server.splitOn colon = [ascii "server", host, port]) →
      let w := (heartWork net connectCount m ⟨s.world, []⟩).world
      ∀ server ∈ m.servers,
        (∀ i < connectCount.toNat, ∃ x, w.boundSlot server i = some x ∧ w.OpenLink server i x) ∧
        (0 < connectCount → ∀ rand mf, ∃ x i, w.OpenLink server i x ∧
          (w.registries.dispatch rand (.toServer server mf)).1 = [(x, mf)]) := by
  have hkept : Kept s := kept_run hstart hrun
  refine ⟨fun server rand mf => hkept.linked.toServer server rand mf, ?_⟩
  intro net m hnet hform w server hserver
  have hlinked : w.Linked := hkept.linked.heartWork net connectCount m
  have hbound := (heartWork_converges connectCount hnet hform s.world hkept.linked.consistent).2
  have hslots : ∀ i < connectCount.toNat, ∃ x, w.boundSlot server i = some x ∧ w.OpenLink server i x := by
    intro i hi
    obtain ⟨x, hx⟩ := Option.ne_none_iff_exists'.mp (hbound _ (ServerMap.mem_visits.mpr ⟨hserver, hi⟩))
    exact ⟨x, hx, (hlinked.openLink hx).1⟩
  refine ⟨hslots, fun hcount rand mf => ?_⟩
  obtain ⟨x, hx, _⟩ := hslots 0 (by omega)
  rcases hlinked.toServer server rand mf with hreach | ⟨hnone, _⟩
  · exact hreach
  · rw [hnone 0] at hx
    cases hx

/-- Two sessions were connected for one slot, and the one that was replaced closes: nothing is bound then. -/
theorem links_recover_doubled :
    ∃ s, Run.run (step 1) start (connectedTwice ++ [.close 0]) = some s ∧
      s.world.boundSlot (ascii "server:10.0.0.1:9000") 0 = none ∧
      let w := (heartWork openNetwork 1 oneServer ⟨s.world, []⟩).world
      ∀ rand mf, ∃ x i, w.OpenLink (ascii "server:10.0.0.1:9000") i x ∧
        (w.registries.dispatch rand (.toServer (ascii "server:10.0.0.1:9000") mf)).1 = [(x, mf)] := by
  have hstart : ∀ e ∈ connectedTwice ++ [.close 0], ∀ error address port, e ≠ Event.startup error address port := by
    intro e he error address port heq
    subst heq
    simp [connectedTwice] at he
  have hform : ∀ server ∈ oneServer.servers, ∃ host port,
      server.splitOn colon = [ascii "server", host, port] := by
    intro server hs
    rw [List.mem_singleton.mp hs]
    exact ⟨ascii "10.0.0.1", ascii "9000", by decide⟩
  refine ⟨_, rfl, rfl, ?_⟩
  exact ((links_recover 1 _ _ hstart rfl).2 openNetwork oneServer openNetwork_sound hform _
    (List.mem_singleton.mpr rfl)).2 (by decide)

end Reconnect

end BServer
