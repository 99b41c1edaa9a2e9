import BServer.System.Recovery

/-!
# `System.Delisted` — a server that leaves the list

`servlist_callback` clears the server map and fills it from the new list. It closes nothing. From then on the
passes no longer come by the slots of a server that is missing there, and what was connected is all there will
be: every session stays as it is until it closes, and takes its slot with it (`Faded`).

`delisted_server_fades` is what that means from outside. `dispatch_to_server` goes on writing to the sessions
that are left, as long as one is; the heartbeat posts them no keepalive.
-/

namespace BServer

open Bytes

namespace Reconnect

/-- No pass is at a slot of the server, or has one ahead. -/
def Forgotten (server : Bytes) (s : Reconnect) : Prop := ∀ p ∈ s.passes, ∀ v ∈ p.todo, v.1 ≠ server

/-- No pass starts on a map with the server in it, and the startup is over. -/
def Event.Without (server : Bytes) : Event → Prop
  | begin _ m     => server ∉ m.servers
  | startup _ _ _ => False
  | _             => True

/-- The sessions that close. -/
def closed (es : List Event) : List SessPtr :=
  es.filterMap fun
    | .close x => some x
    | _ => none

/-- A session after `xs` closed. -/
def settle (xs : List SessPtr) (x : SessPtr) (t : Session) : Session := if x ∈ xs then { t with shut := true } else t

@[simp] theorem settle_id (xs : List SessPtr) (x : SessPtr) (t : Session) : (settle xs x t).id = t.id := by
  unfold settle
  split
  · rfl
  · rfl

@[simp] theorem settle_kind (xs : List SessPtr) (x : SessPtr) (t : Session) : (settle xs x t).kind = t.kind := by
  unfold settle
  split
  · rfl
  · rfl

@[simp] theorem settle_nil (x : SessPtr) (t : Session) : settle [] x t = t := by simp [settle]

theorem settle_other {xs : List SessPtr} {x y : SessPtr} (h : y ≠ x) (t : Session) :
    settle (xs ++ [x]) y t = settle xs y t := by simp [settle, h]

theorem settle_closed (xs : List SessPtr) (x : SessPtr) (t : Session) :
    settle (xs ++ [x]) x t = { settle xs x t with shut := true } := by
  by_cases h : x ∈ xs
  · simp [settle, h]
  · simp [settle, h]

/-- One of `xs` is an outbound session of slot `i`. -/
def ClosedSlot (w : World) (server : Bytes) (xs : List SessPtr) (i : Nat) : Prop :=
  ∃ (x : SessPtr) (t : Session), x ∈ xs ∧ w.sessions[x]? = some t ∧ t.kind = .client ∧ t.id = slotId server i

/-- **What is left of a server**, when `xs` closed since `w`. -/
structure Faded (server : Bytes) (w : World) (xs : List SessPtr) (w' : World) : Prop where
  old    : ∀ (x : SessPtr) (t : Session), w.sessions[x]? = some t → w'.sessions[x]? = some (settle xs x t)
  noNew  : ∀ (x : SessPtr) (t : Session), w'.sessions[x]? = some t → t.kind = .client → t.serverId = server →
    ∃ t₀, w.sessions[x]? = some t₀
  taken  : ∀ i, ClosedSlot w server xs i → w'.boundSlot server i = none
  kept   : ∀ i, ¬ ClosedSlot w server xs i → w'.boundSlot server i = w.boundSlot server i

namespace Faded

variable {server : Bytes} {w w' : World} {xs : List SessPtr}

theorem refl (server : Bytes) (w : World) : Faded server w [] w where
  old := fun x t h => by simpa using h
  noNew := fun x t h _ _ => ⟨t, h⟩
  taken := fun i ⟨x, t, hx, _⟩ => by cases hx
  kept := fun i _ => rfl

/-- A session is brought up for a slot of another server. -/
theorem bringUp (h : Faded server w xs w') (connectCount : Int) (error : Bool) {other : Bytes}
    (hother : other ≠ server) (i : Nat) (address : Bytes) (port : Nat) :
    Faded server w xs (w'.bringUp connectCount (.connectFixId error other (slotId other i)) address port) := by
  have hslot : ∀ j, (w'.bringUp connectCount (.connectFixId error other (slotId other i)) address port).boundSlot
      server j = w'.boundSlot server j := by
    intro j
    apply BringUp.built_fix_other
    intro heq
    exact hother (slotId_inj heq).1.symm
  constructor
  case old =>
    intro x t hx
    exact World.sessions_bringUp_old (h.old x t hx)
  case noNew =>
    intro x t hx hkind hserver
    rcases World.sessions_bringUp_cases hx with hx | ⟨rfl, rfl⟩
    · exact h.noNew x t hx hkind hserver
    · rw [BringUp.built_fix_server] at hserver
      exact absurd hserver hother
  case taken =>
    intro j hj
    rw [hslot]
    exact h.taken j hj
  case kept =>
    intro j hj
    rw [hslot]
    exact h.kept j hj

/-- A session closes. If it is one of the server's, it was there from the start, and its slot goes with it. -/
theorem close (h : Faded server w xs w') (hlinked : w'.Linked) (x : SessPtr) :
    Faded server w (xs ++ [x]) (w'.close x) := by
  cases hx : w'.sessions[x]? with
  | none =>
      -- no such session, now or before
      have hnone : w.sessions[x]? = none := by
        by_contra hne
        obtain ⟨t, ht⟩ := Option.ne_none_iff_exists'.mp hne
        rw [h.old x t ht] at hx
        cases hx
      have hsame : ∀ i, ClosedSlot w server (xs ++ [x]) i → ClosedSlot w server xs i := by
        rintro i ⟨y, t, hy, ht, hslot⟩
        rcases List.mem_append.mp hy with hy | hy
        · exact ⟨y, t, hy, ht, hslot⟩
        · rw [List.mem_singleton.mp hy, hnone] at ht
          cases ht
      rw [World.close, hx]
      refine ⟨fun y t hy => ?_, h.noNew, fun i hi => h.taken i (hsame i hi), fun i hi => h.kept i fun hc => hi ?_⟩
      · have hne : y ≠ x := by
          rintro rfl
          rw [hnone] at hy
          cases hy
        rw [settle_other hne]
        exact h.old y t hy
      · obtain ⟨y, t, hy, hslot⟩ := hc
        exact ⟨y, t, List.mem_append_left _ hy, hslot⟩
  | some s =>
      have hlt : x < w'.sessions.length := (List.getElem?_eq_some_iff.mp hx).1
      have hreg : (w'.close x).registries = (s.close w'.registries).2 := by
        rw [World.close_eq hx]
        rfl
      have hbound : ∀ i, (w'.close x).boundSlot server i
          = if s.kind = .client ∧ s.id = slotId server i then none else w'.boundSlot server i := by
        intro i
        rw [World.boundSlot, hreg]
        rcases World.kind_cases s with hk | hk
        · rw [Session.close_server hk, if_neg]
          · rfl
          · simp [hk]
        · rw [Session.close_fixGet hk]
          simp only [hk, true_and, eq_comm (a := slotId server i)]
          rfl
      -- a session under an id of the server is one it had
      have hslot : ∀ i, ClosedSlot w server (xs ++ [x]) i ↔
          ClosedSlot w server xs i ∨ (s.kind = .client ∧ s.id = slotId server i) := by
        intro i
        constructor
        · rintro ⟨y, t, hy, ht, hkind, hid⟩
          rcases List.mem_append.mp hy with hy | hy
          · exact Or.inl ⟨y, t, hy, ht, hkind, hid⟩
          · right
            rw [List.mem_singleton.mp hy] at ht
            have hs := h.old x t ht
            rw [hx] at hs
            cases hs
            simp [hkind, hid]
        · rintro (⟨y, t, hy, hslot⟩ | ⟨hkind, hid⟩)
          · exact ⟨y, t, List.mem_append_left _ hy, hslot⟩
          · obtain ⟨_, j, hj⟩ := hlinked.named x s hx hkind
            obtain ⟨t, ht⟩ := h.noNew x s hx hkind (slotId_inj (hj.symm.trans hid)).1
            have hs := h.old x t ht
            rw [hx] at hs
            cases hs
            rw [settle_kind] at hkind
            rw [settle_id] at hid
            exact ⟨x, t, by simp, ht, hkind, hid⟩
      constructor
      case old =>
        intro y t hy
        rw [World.sessions_close hx]
        by_cases hyx : y = x
        · subst hyx
          have hs := h.old y t hy
          rw [hx] at hs
          cases hs
          rw [List.getElem?_set_self hlt, settle_closed]
        · rw [List.getElem?_set_ne (Ne.symm hyx), settle_other hyx]
          exact h.old y t hy
      case noNew =>
        intro y t hy hkind hserver
        rw [World.sessions_close hx] at hy
        rcases World.getElem?_set_some hx hy with ⟨rfl, rfl⟩ | ⟨_, hy⟩
        · exact h.noNew y s hx hkind hserver
        · exact h.noNew y t hy hkind hserver
      case taken =>
        intro i hi
        rw [hbound]
        split
        · rfl
        · next hne => exact h.taken i (((hslot i).mp hi).resolve_right hne)
      case kept =>
        intro i hi
        rw [hslot, not_or] at hi
        rw [hbound, if_neg hi.2]
        exact h.kept i hi.1

end Faded

theorem looked_todo {loop : Loop} {bound resolves : Bool} {v u : Bytes × Nat} {vs : List (Bytes × Nat)}
    (h : u ∈ (looked loop bound resolves v vs).todo) : u ∈ v :: vs := by
  unfold looked at h
  split at h
  · exact List.mem_cons_of_mem v h
  · split at h
    · split at h
      · exact h
      · cases h
    · exact List.mem_cons_of_mem v h
    · split at h
      · exact List.mem_cons_of_mem v h
      · cases h

/-- A pass goes on, with nothing new ahead. -/
theorem Forgotten.set {server : Bytes} {s : Reconnect} (h : s.Forgotten server) {i : Nat} {p q : Pass} (w : World)
    (hp : s.passes[i]? = some p) (hq : ∀ v ∈ q.todo, v ∈ p.todo) :
    Forgotten server ⟨w, s.passes.set i q⟩ := by
  intro p' hp' v hv
  rcases List.mem_or_eq_of_mem_set hp' with hp' | rfl
  · exact h p' hp' v hv
  · exact h p (List.mem_of_getElem? hp) v (hq v hv)

/-- One event of a program that visits the server no longer. -/
theorem Faded.step {server : Bytes} {w : World} {xs : List SessPtr} {connectCount : Int} {s s' : Reconnect}
    {e : Event} (h : Faded server w xs s.world) (hkept : Kept s) (hforgotten : s.Forgotten server)
    (he : e.Without server) (hs : Reconnect.step connectCount s e = some s') :
    Faded server w (xs ++ closed [e]) s'.world ∧ s'.Forgotten server := by
  cases e with
  | begin loop m =>
      simp only [Reconnect.step] at hs
      split at hs
      · cases hs
      · cases hs
        refine ⟨by simpa [closed] using h, ?_⟩
        intro p hp v hv
        rcases List.mem_append.mp hp with hp | hp
        · exact hforgotten p hp v hv
        · rw [List.mem_singleton.mp hp] at hv
          have hmem : v.1 ∈ m.servers := (ServerMap.mem_visits.mp hv).1
          intro heq
          rw [heq] at hmem
          exact he hmem
  | look i resolves =>
      simp only [Reconnect.step] at hs
      split at hs
      · next loop v vs hp =>
          cases hs
          refine ⟨by simpa [closed] using h, ?_⟩
          exact hforgotten.set s.world hp fun u hu => looked_todo hu
      · cases hs
  | connect i error address port =>
      simp only [Reconnect.step] at hs
      split at hs
      · next loop todo serverId hp =>
          cases hs
          refine ⟨by simpa [closed] using h, ?_⟩
          exact hforgotten.set s.world hp fun u hu => hu
      · cases hs
  | register i =>
      simp only [Reconnect.step] at hs
      split at hs
      · next loop v vs serverId error address port hp =>
          cases hs
          obtain ⟨rfl, _⟩ := hkept.passes _ (List.mem_of_getElem? hp)
          have hother : v.1 ≠ server := hforgotten _ (List.mem_of_getElem? hp) v List.mem_cons_self
          constructor
          · simpa [closed] using h.bringUp connectCount error hother v.2 address port
          · exact hforgotten.set _ hp fun u hu => List.mem_cons_of_mem v hu
      · cases hs
  | close x =>
      cases hs
      refine ⟨?_, hforgotten⟩
      simpa [closed] using h.close hkept.linked x
  | startup error address port => exact he.elim

theorem closed_append (es fs : List Event) : closed (es ++ fs) = closed es ++ closed fs := by
  simp [closed, List.filterMap_append]

/-- The whole run. -/
theorem faded_run {connectCount : Int} {server : Bytes} {es : List Event} {s s' : Reconnect} (hkept : Kept s)
    (hforgotten : s.Forgotten server) (hes : ∀ e ∈ es, e.Without server)
    (hrun : Run.run (step connectCount) s es = some s') :
    Faded server s.world (closed es) s'.world ∧ Kept s' := by
  refine (Run.run_induction (step connectCount) (P := fun es t => (∀ e ∈ es, Event.Without server e) →
    Faded server s.world (closed es) t.world ∧ Forgotten server t ∧ Kept t) ?_ ?_ hrun hes).imp_right And.right
  · intro _
    exact ⟨.refl server s.world, hforgotten, hkept⟩
  · intro es t e u _ ih hu hes
    obtain ⟨hes, he⟩ := List.forall_mem_append.mp hes
    have he : e.Without server := he e (List.mem_singleton.mpr rfl)
    obtain ⟨hfaded, hforgotten, hkept⟩ := ih hes
    obtain ⟨hfaded', hforgotten'⟩ := hfaded.step hkept hforgotten he hu
    rw [closed_append]
    refine ⟨hfaded', hforgotten', hkept.step ?_ hu⟩
    rintro error address port rfl
    exact he

/-! ## A pass of the heartbeat over another map -/

/-- What a pass leaves of a server that is not in its map: everything, and no keepalive. -/
structure PassedBy (server : Bytes) (w : World) (l : Links) : Prop where
  linked : l.world.Linked
  faded  : Faded server w [] l.world
  beats  : ∀ s i x mf, LinkAct.beat s i x mf ∈ l.acts →
    ∃ t, l.world.sessions[x]? = some t ∧ t.kind = .client ∧ t.serverId ≠ server

namespace PassedBy

variable {server : Bytes} {w : World} {net : Network} {connectCount : Int} {v : Bytes × Nat} {l l' : Links}

/-- A keepalive is posted to the session found in a slot. -/
theorem beat (h : PassedBy server w l) (hv : v.1 ≠ server) {x : SessPtr} (hbound : l.bound v.1 v.2 = some x) :
    PassedBy server w (l.beat v.1 v.2 x) := by
  refine ⟨h.linked, h.faded, fun s i y mf hmem => ?_⟩
  rcases List.mem_append.mp hmem with hmem | hmem
  · exact h.beats s i y mf hmem
  · cases List.mem_singleton.mp hmem
    obtain ⟨⟨t, ht, hkind, _, hserver, _⟩, _⟩ := h.linked.openLink hbound
    exact ⟨t, ht, hkind, by rwa [hserver]⟩

/-- A slot is connected. -/
theorem connect (h : PassedBy server w l) (hv : v.1 ≠ server) (hne : v.1 ≠ []) (error : Bool) (address : Bytes)
    (port : Nat) :
    PassedBy server w
      (l.connect connectCount v.1 v.2 (.connectFixId error v.1 (slotId v.1 v.2)) address port) := by
  refine ⟨h.linked.bringUp connectCount error hne v.2 address port,
    h.faded.bringUp connectCount error hv v.2 address port, fun s i y mf hmem => ?_⟩
  have hold : LinkAct.beat s i y mf ∈ l.acts := by simpa [Links.connect] using hmem
  obtain ⟨t, ht, hrest⟩ := h.beats s i y mf hold
  exact ⟨t, World.sessions_bringUp_old ht, hrest⟩

theorem visit (h : PassedBy server w l) (hv : v.1 ≠ server) (hs : heartVisit net connectCount v l = some l') :
    PassedBy server w l' := by
  unfold heartVisit at hs
  split at hs
  · next x hbound =>
      cases hs
      exact h.beat hv hbound
  · split at hs
    · next a b c hentry =>
        by_cases hres : net.resolves (cString b) (cString c) = true
        · rw [connectSlot_eq hres] at hs
          cases hs
          rw [entryOf_named hentry]
          exact h.connect hv (named_ne_nil hentry) _ _ _
        · rw [connectSlot, if_neg hres] at hs
          cases hs
    · cases hs
      exact h

end PassedBy

theorem heartWork_passesBy {server : Bytes} {w : World} (h : w.Linked) (net : Network) (connectCount : Int)
    {m : ServerMap} (hserver : server ∉ m.servers) :
    PassedBy server w (heartWork net connectCount m ⟨w, []⟩) := by
  apply Sweep.run_induction
  · exact ⟨h, .refl server w, fun s i x mf hmem => by cases hmem⟩
  · intro v hv l l' hl hs
    refine hl.visit ?_ hs
    rintro rfl
    exact hserver (ServerMap.mem_visits.mp hv).1

/-! ## From outside -/

/-- **A server that left the list.** From any state a run of passes and closes leaves, while no pass has the
    server ahead and none starts on a map with it: its sessions are those it had, as they were until they close,
    and a slot is bound as it was until one of its sessions closes. `dispatch_to_server` writes to one of the open
    ones among them, unless no slot is bound any more, and then nothing. A pass of the heartbeat in between, over
    whatever map without the server, leaves its slots alone and posts none of its sessions a keepalive. -/
theorem delisted_server_fades (connectCount : Int) (server : Bytes) (es fs : List Event) (s s' : Reconnect)
    (hstart : ∀ e ∈ es, ∀ error address port, e ≠ .startup error address port)
    (hrun : Run.run (step connectCount) start es = some s) (hforgotten : s.Forgotten server)
    (hwithout : ∀ e ∈ fs, e.Without server) (hrun' : Run.run (step connectCount) s fs = some s') :
    ((∀ (x : SessPtr) (t₀ : Session), s.world.sessions[x]? = some t₀ →
        s'.world.sessions[x]? = some (settle (closed fs) x t₀)) ∧
      ∀ (x : SessPtr) (t : Session), s'.world.sessions[x]? = some t → t.kind = .client → t.serverId = server →
        ∃ t₀, s.world.sessions[x]? = some t₀ ∧ t = settle (closed fs) x t₀) ∧
    (∀ i, (ClosedSlot s.world server (closed fs) i → s'.world.boundSlot server i = none) ∧
      (¬ ClosedSlot s.world server (closed fs) i →
        s'.world.boundSlot server i = s.world.boundSlot server i)) ∧
    (∀ rand mf,
      (∃ x i, s.world.OpenLink server i x ∧ s'.world.OpenLink server i x ∧
        (s'.world.registries.dispatch rand (.toServer server mf)).1 = [(x, mf)]) ∨
      ((∀ i, s'.world.boundSlot server i = none) ∧
        (s'.world.registries.dispatch rand (.toServer server mf)).1 = [])) ∧
    ∀ (net : Network) (m : ServerMap), server ∉ m.servers →
      let l := heartWork net connectCount m ⟨s'.world, []⟩
      (∀ i, l.world.boundSlot server i = s'.world.boundSlot server i) ∧
      ∀ r i x mf, LinkAct.beat r i x mf ∈ l.acts → ∀ j, ¬ l.world.OpenLink server j x := by
  have hkept : Kept s := kept_run hstart hrun
  obtain ⟨hfaded, hkept'⟩ := faded_run hkept hforgotten hwithout hrun'
  have hsessions : ∀ (x : SessPtr) (t : Session), s'.world.sessions[x]? = some t → t.kind = .client →
      t.serverId = server → ∃ t₀, s.world.sessions[x]? = some t₀ ∧ t = settle (closed fs) x t₀ := by
    intro x t ht hkind hserver
    obtain ⟨t₀, ht₀⟩ := hfaded.noNew x t ht hkind hserver
    have hnow := hfaded.old x t₀ ht₀
    rw [ht] at hnow
    exact ⟨t₀, ht₀, Option.some.inj hnow⟩
  refine ⟨⟨hfaded.old, hsessions⟩, fun i => ⟨hfaded.taken i, hfaded.kept i⟩, fun rand mf => ?_, fun net m hm => ?_⟩
  · rcases hkept'.linked.toServer server rand mf with ⟨x, i, hopen, hwrite⟩ | hnothing
    · refine Or.inl ⟨x, i, ?_, hopen, hwrite⟩
      obtain ⟨t, ht, hkind, hshut, hserver, hid⟩ := hopen
      obtain ⟨t₀, ht₀, rfl⟩ := hsessions x t ht hkind hserver
      have hnot : x ∉ closed fs := by
        intro hx
        rw [settle, if_pos hx] at hshut
        cases hshut
      rw [settle, if_neg hnot] at hkind hshut hserver hid
      exact ⟨t₀, ht₀, hkind, hshut, hserver, hid⟩
    · exact Or.inr hnothing
  · have hpass := heartWork_passesBy hkept'.linked net connectCount hm
    constructor
    · intro i
      apply hpass.faded.kept
      rintro ⟨x, _, hx, _⟩
      cases hx
    · intro r i x mf hbeat j hopen
      obtain ⟨t, ht, _, hserver⟩ := hpass.beats r i x mf hbeat
      obtain ⟨t', ht', _, _, hserver', _⟩ := hopen
      rw [ht] at ht'
      cases ht'
      exact hserver hserver'

def otherServer : ServerMap := ⟨[(2, ascii "server:10.0.0.2:9000")], by decide⟩

/-- The list comes without a server that is connected. Frames for it are still written to its session. -/
theorem delisted_server_fades_once :
    ∃ s s', Run.run (step 1) start
        [.begin .work oneServer, .look 0 true, .connect 0 false (ascii "10.0.0.1") 9000, .register 0] = some s ∧
      Run.run (step 1) s [.begin .servlistCallback otherServer] = some s' ∧
      ∀ rand mf, ∃ x i, s'.world.OpenLink (ascii "server:10.0.0.1:9000") i x ∧
        (s'.world.registries.dispatch rand (.toServer (ascii "server:10.0.0.1:9000") mf)).1 = [(x, mf)] := by
  have hother : ascii "server:10.0.0.1:9000" ∉ otherServer.servers := by decide
  obtain ⟨s, s', hs, hs', htodo, hbound⟩ : ∃ s s', Run.run (step 1) start
      [.begin .work oneServer, .look 0 true, .connect 0 false (ascii "10.0.0.1") 9000, .register 0] = some s ∧
      Run.run (step 1) s [.begin .servlistCallback otherServer] = some s' ∧
      (∀ p ∈ s.passes, p.todo = []) ∧ s'.world.boundSlot (ascii "server:10.0.0.1:9000") 0 ≠ none :=
    ⟨_, _, rfl, rfl, by decide, by decide⟩
  have hforgotten : s.Forgotten (ascii "server:10.0.0.1:9000") := by
    intro p hp v hv
    rw [htodo p hp] at hv
    cases hv
  refine ⟨s, s', hs, hs', fun rand mf => ?_⟩
  have hfades := delisted_server_fades 1 (ascii "server:10.0.0.1:9000") _ _ s s' (by simp) hs hforgotten
    (by simpa [Event.Without] using hother) hs'
  rcases hfades.2.2.1 rand mf with ⟨x, i, _, hopen, hwrite⟩ | ⟨hnone, _⟩
  · exact ⟨x, i, hopen, hwrite⟩
  · exact absurd (hnone 0) hbound

end Reconnect

end BServer
