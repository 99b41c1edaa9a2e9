import BServer.System.ServerList

/-!
# `System.Heartbeat` — what one pass over the servers gets done

A name that does not resolve makes `resolve` throw, out of both loops at once: whatever comes after it in the
order of the map is not visited in this pass, neither to keep its connections alive nor to connect it. Entries
that are no `server:host:port` are passed over with a `continue`. `one_bad_server_iff` says for each of the
three loops exactly when nobody is left out: when all that has something to be done for it stands before the
first visit that ends the loop. At startup a connection that is reset at once ends it as well, and is the last one
that is made.

Where all names resolve and all connections succeed, one iteration of the heartbeat binds every slot and a
second one finds nothing to do (`heartbeat_converges`).
-/

namespace BServer

open Bytes

/-! ## What ends a loop, and what it is for -/

/-- The name of the server has an address. -/
def Resolvable (net : Network) (server : Bytes) : Prop :=
  ∃ a b c, entryOf server = .named a b c ∧ net.resolves (cString b) (cString c) = true

/-- The session bound in slot `i` of a server. -/
def World.boundSlot (w : World) (server : Bytes) (i : Nat) : Option SessPtr :=
  w.registries.peerMapClient.fixGet (slotId server i)

section Blocks

variable (net : Network) (w : World)

/-- The name of the server is of the right form, and has no address. -/
def unresolvable (server : Bytes) : Bool :=
  match entryOf server with
  | .named _ b c => !net.resolves (cString b) (cString c)
  | _ => false

/-- Or it has fewer than three parts, and the message about it reads further. -/
def unreadable (server : Bytes) : Bool :=
  match entryOf server with
  | .named _ b c => !net.resolves (cString b) (cString c)
  | .longer => false
  | .shorter => true

/-- The visits that end an iteration of the heartbeat. -/
def heartBlocks (v : Bytes × Nat) : Bool := (w.boundSlot v.1 v.2).isNone && unresolvable net v.1

/-- Session `x` connects to the server, and its peer resets the connection at once. -/
def resetAtOnce (x : SessPtr) (server : Bytes) : Bool :=
  match entryOf server with
  | .named _ b c => !(net.connect (cString b) (cString c) x).1 && net.resets (cString b) (cString c) x
  | _ => false

/-- The visits that end `init_server_connection`, when the next session is `x`. -/
def initBlocks (x : SessPtr) (v : Bytes × Nat) : Bool := unreadable net v.1 || resetAtOnce net x v.1

/-- The next session after a visit that went through. -/
def initNext (v : Bytes × Nat) (x : SessPtr) : SessPtr :=
  match entryOf v.1 with
  | .named _ _ _ => x + 1
  | _ => x

/-- The visits that end the loop of `servlist_callback`. -/
def callbackBlocks (v : Bytes × Nat) : Bool := (w.boundSlot v.1 v.2).isNone && unreadable net v.1

/-- What the heartbeat has to do for a slot: keep a connection alive, or make one. -/
def HeartDuty (v : Bytes × Nat) : Prop := w.boundSlot v.1 v.2 ≠ none ∨ Resolvable net v.1

def InitDuty (v : Bytes × Nat) : Prop := Resolvable net v.1

def CallbackDuty (v : Bytes × Nat) : Prop := w.boundSlot v.1 v.2 = none ∧ Resolvable net v.1

end Blocks

/-- Everything with a duty to it is visited before the first visit that ends the loop. -/
def Unstarved (visits : List (Bytes × Nat)) (Duty : Bytes × Nat → Prop) (blocks : Bytes × Nat → Bool) : Prop :=
  ∀ v ∈ visits, Duty v → v ∈ visits.takeWhile (fun v => !blocks v)

/-- Every slot that startup is to connect is visited, at the latest by the visit that ends it. -/
def InitUnstarved (net : Network) (w : World) (visits : List (Bytes × Nat)) : Prop :=
  ∀ v ∈ visits, InitDuty net v → v ∈ Sweep.reached (initBlocks net) initNext w.sessions.length visits

section ServesAll

variable (net : Network) (connectCount : Int) (m : ServerMap) (w : World)

/-- One iteration sends a keepalive on every bound slot of a listed server, and attempts a connection for every
    unbound slot of a listed server that resolves. -/
def HeartServesAll : Prop :=
  let l := heartWork net connectCount m ⟨w, []⟩
  ∀ s ∈ m.servers, ∀ i < connectCount.toNat,
    (∀ x, w.boundSlot s i = some x → .beat s i x heartFrame ∈ l.acts) ∧
    (w.boundSlot s i = none → Resolvable net s → ∃ x, .attempt s i x ∈ l.acts)

/-- Startup attempts every connection of every listed server that resolves. -/
def InitServesAll : Prop :=
  let l := initServerConnection net connectCount m ⟨w, []⟩
  ∀ s ∈ m.servers, ∀ i < connectCount.toNat, Resolvable net s → ∃ x, .attempt s i x ∈ l.acts

/-- The callback attempts every connection of every server of the new list that resolves and is not bound. -/
def CallbackServesAll (servCfgs : List ServCfg) : Prop :=
  let l := (servlistCallback net connectCount servCfgs m ⟨w, []⟩).2
  ∀ s ∈ (ServerMap.refreshed servCfgs).servers, ∀ i < connectCount.toNat,
    w.boundSlot s i = none → Resolvable net s → ∃ x, .attempt s i x ∈ l.acts

end ServesAll

/-! ## One visit -/

section Visit

variable {net : Network} {connectCount : Int} {w : World} {l : Links} {s : Bytes} {i : Nat}

/-- Without a name there is nothing to resolve. -/
theorem not_resolvable_of_entry (h : ∀ a b c, entryOf s ≠ .named a b c) : ¬ Resolvable net s := by
  rintro ⟨a, b, c, hentry, _⟩
  exact h a b c hentry

theorem not_resolvable_of_unresolvable (h : unresolvable net s = true) : ¬ Resolvable net s := by
  rintro ⟨a, b, c, hentry, hres⟩
  rw [unresolvable, hentry] at h
  simp [hres] at h

theorem not_resolvable_of_unreadable (h : unreadable net s = true) : ¬ Resolvable net s := by
  rintro ⟨a, b, c, hentry, hres⟩
  rw [unreadable, hentry] at h
  simp [hres] at h

/-- The slot an action is for. -/
def LinkAct.slot : LinkAct → Option (Bytes × Nat)
  | beat server i _ _  => some (server, i)
  | attempt server i _ => some (server, i)
  | register _ _       => none

/-- **What a pass leaves.** Bound slots stay bound to their sessions; a slot bound meanwhile is one of a server
    that resolves, and its connection was attempted. -/
structure Started (net : Network) (w : World) (l : Links) : Prop where
  kept  : ∀ k x, w.registries.peerMapClient.fixGet k = some x →
    l.world.registries.peerMapClient.fixGet k = some x
  fresh : ∀ s i, w.boundSlot s i = none → l.bound s i ≠ none →
    Resolvable net s ∧ ∃ x, .attempt s i x ∈ l.acts

theorem started_start (net : Network) (w : World) : Started net w ⟨w, []⟩ where
  kept := fun _ _ h => h
  fresh := fun _ _ h h' => absurd h h'

/-- An unbound slot was unbound at the start. -/
theorem Started.unbound (h : Started net w l) (hb : l.bound s i = none) : w.boundSlot s i = none := by
  cases hw : w.boundSlot s i with
  | none => rfl
  | some x =>
      rw [Links.bound, h.kept _ x hw] at hb
      cases hb

/-- A server that does not resolve was not connected to. -/
theorem Started.still_unbound (h : Started net w l) (hw : w.boundSlot s i = none) (hres : ¬ Resolvable net s) :
    l.bound s i = none := by
  by_contra hne
  exact hres (h.fresh s i hw hne).1

/-- A slot that was bound during the pass was connected by a visit. -/
theorem Started.attempted (h : Started net w l) (hw : w.boundSlot s i = none) {x : SessPtr}
    (hbound : l.bound s i = some x) : ∃ y, .attempt s i y ∈ l.acts := by
  have hne : l.bound s i ≠ none := by
    rw [hbound]
    exact Option.some_ne_none x
  exact (h.fresh s i hw hne).2

theorem Started.beat (h : Started net w l) (x : SessPtr) : Started net w (l.beat s i x) where
  kept := h.kept
  fresh := by
    intro s' i' hw hl
    obtain ⟨hres, y, hy⟩ := h.fresh s' i' hw hl
    exact ⟨hres, y, List.mem_append_left _ hy⟩

/-- Connecting for a slot changes no other binding. -/
theorem fixGet_connect {error : Bool} {serverId k address : Bytes} {port : Nat} (hk : k ≠ slotId s i) :
    let up : BringUp := .connectFixId error serverId (slotId s i)
    (l.connect connectCount s i up address port).world.registries.peerMapClient.fixGet k
      = l.world.registries.peerMapClient.fixGet k :=
  BringUp.built_fix_other connectCount l.world.sessions.length address port .new l.world.registries error
    serverId hk

theorem Started.connect (h : Started net w l) (hb : l.bound s i = none) (hres : Resolvable net s) (error : Bool)
    (serverId address : Bytes) (port : Nat) :
    Started net w (l.connect connectCount s i (.connectFixId error serverId (slotId s i)) address port) where
  kept := by
    intro k x hk
    have hl := h.kept k x hk
    refine (fixGet_connect ?_).trans hl
    · rintro rfl
      rw [Links.bound, hl] at hb
      cases hb
  fresh := by
    intro s' i' hw hl
    by_cases hk : slotId s' i' = slotId s i
    · obtain ⟨rfl, rfl⟩ := slotId_inj hk
      exact ⟨hres, l.world.sessions.length, List.mem_append_right _ List.mem_cons_self⟩
    · have hl : l.bound s' i' ≠ none := fun he => hl ((fixGet_connect hk).trans he)
      obtain ⟨hres', y, hy⟩ := h.fresh s' i' hw hl
      exact ⟨hres', y, List.mem_append_left _ hy⟩

/-- What was done for a slot after a visit, if not before, is for the slot visited. -/
theorem served_append {Serves : Bytes × Nat → LinkAct → Prop} {u v : Bytes × Nat}
    {acts new : List LinkAct} (hslot : ∀ u a, Serves u a → a.slot = some u)
    (hnew : ∀ a ∈ new, ∀ u, a.slot = some u → u = v) :
    ((∃ a ∈ acts, Serves u a) → ∃ a ∈ acts ++ new, Serves u a) ∧
    ((∃ a ∈ acts ++ new, Serves u a) → (∃ a ∈ acts, Serves u a) ∨ u = v) := by
  constructor
  · rintro ⟨a, ha, hs⟩
    exact ⟨a, List.mem_append_left _ ha, hs⟩
  · rintro ⟨a, ha, hs⟩
    rcases List.mem_append.mp ha with ha | ha
    · exact Or.inl ⟨a, ha, hs⟩
    · exact Or.inr (hnew a ha u (hslot u a hs))

/-- Building a `peer_handle_client` and registering it is for one slot. -/
theorem connect_slot {conected : Int} {x y : SessPtr} {a : LinkAct}
    (ha : a ∈ LinkAct.attempt s i x :: (registe conected).map (LinkAct.register y)) {u : Bytes × Nat}
    (hu : a.slot = some u) : u = (s, i) := by
  rcases List.mem_cons.mp ha with rfl | ha
  · exact (Option.some.inj hu).symm
  · obtain ⟨mf, _, rfl⟩ := List.mem_map.mp ha
    cases hu

/-- An action that attempts the connection of a slot. -/
def Attempts (v : Bytes × Nat) (a : LinkAct) : Prop := ∃ x, a = .attempt v.1 v.2 x

theorem attempts_slot (u : Bytes × Nat) (a : LinkAct) (h : Attempts u a) : a.slot = some u := by
  obtain ⟨x, rfl⟩ := h
  rfl

/-- An action of the heartbeat that does what a slot is due. -/
def HeartServes (w : World) (v : Bytes × Nat) (a : LinkAct) : Prop :=
  (∃ x, w.boundSlot v.1 v.2 = some x ∧ a = .beat v.1 v.2 x heartFrame) ∨
  (w.boundSlot v.1 v.2 = none ∧ Attempts v a)

theorem heartServes_slot (u : Bytes × Nat) (a : LinkAct) (h : HeartServes w u a) : a.slot = some u := by
  rcases h with ⟨x, _, rfl⟩ | ⟨_, h⟩
  · rfl
  · exact attempts_slot u a h

variable (connectCount) in
/-- Connecting for a slot does what is due for it, if the name resolves. -/
theorem connectSlot_step {Serves : Bytes × Nat → LinkAct → Prop} (hslot : ∀ u a, Serves u a → a.slot = some u)
    {a b c : Bytes} (h : Started net w l) (hbound : l.bound s i = none) (hentry : entryOf s = .named a b c)
    (hres : net.resolves (cString b) (cString c) = true) (hserves : ∀ x, Serves (s, i) (.attempt s i x)) :
    ∃ l', connectSlot net connectCount a b c (s, i) l = some l' ∧ Started net w l' ∧
      (∃ a ∈ l'.acts, Serves (s, i) a) ∧
      ∀ u, ((∃ a ∈ l.acts, Serves u a) → ∃ a ∈ l'.acts, Serves u a) ∧
        ((∃ a ∈ l'.acts, Serves u a) → (∃ a ∈ l.acts, Serves u a) ∨ u = (s, i)) := by
  unfold connectSlot
  rw [if_pos hres]
  rcases net.connect (cString b) (cString c) l.world.sessions.length with ⟨error, address, port⟩
  refine ⟨_, rfl, h.connect hbound ⟨a, b, c, hentry, hres⟩ error _ address port, ?_,
    fun u => served_append hslot (fun act hact u hu => connect_slot hact hu)⟩
  exact ⟨_, List.mem_append_right _ List.mem_cons_self, hserves _⟩

/-- A visit that does nothing serves nobody. -/
theorem served_same {Serves : Bytes × Nat → LinkAct → Prop} {v : Bytes × Nat} (u : Bytes × Nat) :
    ((∃ a ∈ l.acts, Serves u a) → ∃ a ∈ l.acts, Serves u a) ∧
      ((∃ a ∈ l.acts, Serves u a) → (∃ a ∈ l.acts, Serves u a) ∨ u = v) :=
  ⟨fun hs => hs, Or.inl⟩

/-! ### The heartbeat -/

theorem heartVisit_blocked {v : Bytes × Nat} (h : Started net w l) (hb : heartBlocks net w v = true) :
    heartVisit net connectCount v l = none := by
  unfold heartBlocks at hb
  rw [Bool.and_eq_true, Option.isNone_iff_eq_none] at hb
  obtain ⟨hunbound, hres⟩ := hb
  have hnow := h.still_unbound hunbound (not_resolvable_of_unresolvable hres)
  unfold unresolvable at hres
  unfold heartVisit
  rw [hnow]
  cases hentry : entryOf v.1 with
  | named a b c =>
      rw [hentry] at hres
      simp only [Bool.not_eq_true'] at hres
      simp [connectSlot, hres]
  | longer =>
      rw [hentry] at hres
      cases hres
  | shorter =>
      rw [hentry] at hres
      cases hres

/-- One visit of the heartbeat that does not end the loop does what is due. -/
theorem heartVisit_step {v : Bytes × Nat} (h : Started net w l) (hb : heartBlocks net w v = false) :
    ∃ l', heartVisit net connectCount v l = some l' ∧ Started net w l' ∧
      (HeartDuty net w v → ∃ a ∈ l'.acts, HeartServes w v a) ∧
      ∀ u, ((∃ a ∈ l.acts, HeartServes w u a) → ∃ a ∈ l'.acts, HeartServes w u a) ∧
        ((∃ a ∈ l'.acts, HeartServes w u a) → (∃ a ∈ l.acts, HeartServes w u a) ∨ u = v) := by
  obtain ⟨s, i⟩ := v
  unfold heartVisit
  cases hbound : l.bound s i with
  | some x =>
      refine ⟨l.beat s i x, rfl, h.beat x, ?_, fun u => served_append heartServes_slot ?_⟩
      · intro hduty
        cases hw : w.boundSlot s i with
        | some x' =>
            have hx : some x' = some x := (h.kept _ x' hw).symm.trans hbound
            exact ⟨_, List.mem_append_right _ List.mem_cons_self, Or.inl ⟨x, hw.trans hx, rfl⟩⟩
        | none =>
            obtain ⟨y, hy⟩ := h.attempted hw hbound
            exact ⟨_, List.mem_append_left _ hy, Or.inr ⟨hw, y, rfl⟩⟩
      · intro a ha u hu
        cases List.mem_singleton.mp ha
        exact (Option.some.inj hu).symm
  | none =>
      have hw := h.unbound hbound
      -- without a name to resolve nothing is due
      have hidle : (∀ a b c, entryOf s ≠ .named a b c) → ¬ HeartDuty net w (s, i) := by
        rintro hentry (hw' | hres)
        · exact hw' hw
        · exact not_resolvable_of_entry hentry hres
      have hres : unresolvable net s = false := by
        simpa [heartBlocks, hw] using hb
      unfold unresolvable at hres
      cases hentry : entryOf s with
      | named a b c =>
          rw [hentry] at hres
          simp only [Bool.not_eq_false'] at hres
          obtain ⟨l', hl', hstarted, hserved, hother⟩ := connectSlot_step connectCount
            heartServes_slot h hbound hentry hres (fun x => Or.inr ⟨hw, x, rfl⟩)
          exact ⟨l', hl', hstarted, fun _ => hserved, hother⟩
      | longer =>
          exact ⟨l, rfl, h, fun hd => absurd hd (hidle (by simp [hentry])), served_same⟩
      | shorter =>
          exact ⟨l, rfl, h, fun hd => absurd hd (hidle (by simp [hentry])), served_same⟩

/-- **The heartbeat.** An iteration does what is due for a slot exactly when the slot comes before the first
    unbound one whose server does not resolve. -/
theorem heartServesAll_iff (net : Network) (connectCount : Int) (m : ServerMap) (w : World) :
    HeartServesAll net connectCount m w ↔
      Unstarved (m.visits connectCount) (HeartDuty net w) (heartBlocks net w) := by
  have hserved : ∀ v, HeartDuty net w v →
      ((∃ a ∈ (heartWork net connectCount m ⟨w, []⟩).acts, HeartServes w v a) ↔
        v ∈ (m.visits connectCount).takeWhile (fun v => !heartBlocks net w v)) := by
    intro v hduty
    have hiff := Sweep.run_served_iff (heartVisit net connectCount)
      (fun u l => ∃ a ∈ l.acts, HeartServes w u a) (started_start net w)
      (fun v (_ : v ∈ m.visits connectCount) l h hb => heartVisit_blocked h hb)
      (fun v _ l h hb => heartVisit_step h hb) hduty
    simpa [heartWork] using hiff
  unfold HeartServesAll Unstarved
  constructor
  · rintro hall ⟨s, i⟩ hv hduty
    obtain ⟨hs, hi⟩ := ServerMap.mem_visits.mp hv
    obtain ⟨hbeat, hattempt⟩ := hall s hs i hi
    refine (hserved _ hduty).mp ?_
    cases hw : w.boundSlot s i with
    | some x => exact ⟨_, hbeat x hw, Or.inl ⟨x, hw, rfl⟩⟩
    | none =>
        rcases hduty with hne | hres
        · exact absurd hw hne
        · obtain ⟨x, hx⟩ := hattempt hw hres
          exact ⟨_, hx, Or.inr ⟨hw, x, rfl⟩⟩
  · intro hall l s hs i hi
    have hv := ServerMap.mem_visits.mpr ⟨hs, hi⟩
    constructor
    · intro x hw
      have hduty : HeartDuty net w (s, i) := Or.inl (by rw [hw]; exact Option.some_ne_none x)
      obtain ⟨a, ha, hserves⟩ := (hserved _ hduty).mpr (hall _ hv hduty)
      rcases hserves with ⟨x', hx', rfl⟩ | ⟨hnone, _⟩
      · rw [hw] at hx'
        cases hx'
        exact ha
      · rw [hw] at hnone
        cases hnone
    · intro hw hres
      obtain ⟨a, ha, hserves⟩ := (hserved _ (Or.inr hres)).mpr (hall _ hv (Or.inr hres))
      rcases hserves with ⟨x', hx', _⟩ | ⟨_, x, rfl⟩
      · rw [hw] at hx'
        cases hx'
      · exact ⟨x, ha⟩

/-! ### Startup -/

/-- What was done for a slot that something is due for, after a visit: what was done before, and the visit. -/
theorem attempts_append {u v : Bytes × Nat} {acts new : List LinkAct} (hnew : ∀ a ∈ new, ∀ u, a.slot = some u → u = v)
    (hserves : ∃ a ∈ new, Attempts v a) :
    (∃ a ∈ acts ++ new, Attempts u a) ↔ (∃ a ∈ acts, Attempts u a) ∨ u = v := by
  constructor
  · exact (served_append attempts_slot hnew).2
  · rintro (hs | rfl)
    · exact (served_append attempts_slot hnew).1 hs
    · obtain ⟨a, ha, hs⟩ := hserves
      exact ⟨a, List.mem_append_right _ ha, hs⟩

/-- A visit that is not due does nothing for a slot that is. -/
theorem attempts_idle {u v : Bytes × Nat} {acts : List LinkAct} (hu : InitDuty net u) (hv : ¬ InitDuty net v) :
    (∃ a ∈ acts, Attempts u a) ↔ (∃ a ∈ acts, Attempts u a) ∨ u = v := by
  refine ⟨Or.inl, fun h => h.resolve_right ?_⟩
  rintro rfl
  exact hv hu

variable (connectCount) in
/-- The visit that ends startup connects if the name resolves, and does nothing otherwise. -/
theorem initVisit_blocked {v : Bytes × Nat} (hb : initBlocks net l.world.sessions.length v = true) :
    initVisit net connectCount v l = none ∧ ∀ u, InitDuty net u →
      ((∃ a ∈ (initThrown net v l).acts, Attempts u a) ↔ (∃ a ∈ l.acts, Attempts u a) ∨ u = v) := by
  obtain ⟨s, i⟩ := v
  unfold initBlocks unreadable resetAtOnce at hb
  unfold initVisit initThrown
  cases hentry : entryOf s with
  | named a b c =>
      simp only [hentry] at hb ⊢
      cases hres : net.resolves (cString b) (cString c) with
      | true =>
          rw [hres, Bool.not_true, Bool.false_or] at hb
          simp only [hb, if_true]
          refine ⟨trivial, fun u _ => attempts_append ?_ ⟨_, List.mem_cons_self, _, rfl⟩⟩
          intro act hact u hu
          cases List.mem_singleton.mp hact
          exact (Option.some.inj hu).symm
      | false =>
          simp only [Bool.false_eq_true, if_false]
          refine ⟨trivial, fun u hu => attempts_idle hu ?_⟩
          exact not_resolvable_of_unresolvable (by simp [unresolvable, hentry, hres])
  | longer =>
      simp only [hentry] at hb
      cases hb
  | shorter =>
      exact ⟨rfl, fun u hu => attempts_idle hu (not_resolvable_of_entry (by simp [hentry]))⟩

theorem initVisit_step {v : Bytes × Nat} (hb : initBlocks net l.world.sessions.length v = false) :
    ∃ l', initVisit net connectCount v l = some l' ∧
      l'.world.sessions.length = initNext v l.world.sessions.length ∧ ∀ u, InitDuty net u →
        ((∃ a ∈ l'.acts, Attempts u a) ↔ (∃ a ∈ l.acts, Attempts u a) ∨ u = v) := by
  obtain ⟨s, i⟩ := v
  unfold initBlocks unreadable resetAtOnce at hb
  unfold initVisit initNext
  cases hentry : entryOf s with
  | named a b c =>
      simp only [hentry, Bool.or_eq_false_iff, Bool.not_eq_false'] at hb
      obtain ⟨hres, hstays⟩ := hb
      simp only [hres, hstays, if_true, Bool.false_eq_true, if_false]
      refine ⟨_, rfl, List.length_append, fun u _ => attempts_append ?_ ⟨_, List.mem_cons_self, _, rfl⟩⟩
      exact fun act hact u hu => connect_slot hact hu
  | longer =>
      exact ⟨l, rfl, rfl, fun u hu => attempts_idle hu (not_resolvable_of_entry (by simp [hentry]))⟩
  | shorter =>
      simp only [hentry] at hb
      cases hb

/-- **Startup.** It attempts the connections of a server exactly when it comes to them before it ends, or with the
    one that ends it. -/
theorem initServesAll_iff (net : Network) (connectCount : Int) (m : ServerMap) (w : World) :
    InitServesAll net connectCount m w ↔ InitUnstarved net w (m.visits connectCount) := by
  have hserved : ∀ v, InitDuty net v →
      ((∃ a ∈ (initServerConnection net connectCount m ⟨w, []⟩).acts, Attempts v a) ↔
        v ∈ Sweep.reached (initBlocks net) initNext w.sessions.length (m.visits connectCount)) := by
    intro v hduty
    have hiff := Sweep.runThrowing_served_iff (initVisit net connectCount) (initThrown net)
      (fun u l => ∃ a ∈ l.acts, Attempts u a) (P := fun x l => l.world.sessions.length = x) (s := ⟨w, []⟩) rfl
      (fun v (_ : v ∈ m.visits connectCount) x l hx hb => initVisit_blocked connectCount (hx ▸ hb))
      (fun v _ x l hx hb => hx ▸ initVisit_step (hx ▸ hb)) hduty
    simpa [initServerConnection] using hiff
  unfold InitServesAll InitUnstarved
  constructor
  · rintro hall ⟨s, i⟩ hv hduty
    obtain ⟨hs, hi⟩ := ServerMap.mem_visits.mp hv
    obtain ⟨x, hx⟩ := hall s hs i hi hduty
    exact (hserved _ hduty).mp ⟨_, hx, x, rfl⟩
  · intro hall l s hs i hi hres
    obtain ⟨a, ha, x, rfl⟩ := (hserved (s, i) hres).mpr (hall _ (ServerMap.mem_visits.mpr ⟨hs, hi⟩) hres)
    exact ⟨x, ha⟩

/-! ### The callback -/

theorem callbackVisit_blocked {v : Bytes × Nat} (h : Started net w l) (hb : callbackBlocks net w v = true) :
    callbackVisit net connectCount v l = none := by
  unfold callbackBlocks at hb
  rw [Bool.and_eq_true, Option.isNone_iff_eq_none] at hb
  obtain ⟨hunbound, hread⟩ := hb
  have hnow := h.still_unbound hunbound (not_resolvable_of_unreadable hread)
  unfold unreadable at hread
  unfold callbackVisit
  rw [hnow]
  cases hentry : entryOf v.1 with
  | named a b c =>
      rw [hentry] at hread
      simp only [Bool.not_eq_true'] at hread
      simp [connectSlot, hread]
  | longer =>
      rw [hentry] at hread
      cases hread
  | shorter => rfl

theorem callbackVisit_step {v : Bytes × Nat} (h : Started net w l) (hb : callbackBlocks net w v = false) :
    ∃ l', callbackVisit net connectCount v l = some l' ∧ Started net w l' ∧
      (CallbackDuty net w v → ∃ a ∈ l'.acts, Attempts v a) ∧
      ∀ u, ((∃ a ∈ l.acts, Attempts u a) → ∃ a ∈ l'.acts, Attempts u a) ∧
        ((∃ a ∈ l'.acts, Attempts u a) → (∃ a ∈ l.acts, Attempts u a) ∨ u = v) := by
  obtain ⟨s, i⟩ := v
  unfold callbackVisit
  cases hbound : l.bound s i with
  | some x =>
      refine ⟨l, rfl, h, ?_, served_same⟩
      rintro ⟨hw, _⟩
      obtain ⟨y, hy⟩ := h.attempted hw hbound
      exact ⟨_, hy, y, rfl⟩
  | none =>
      have hw := h.unbound hbound
      have hread : unreadable net s = false := by
        simpa [callbackBlocks, hw] using hb
      unfold unreadable at hread
      cases hentry : entryOf s with
      | named a b c =>
          rw [hentry] at hread
          simp only [Bool.not_eq_false'] at hread
          obtain ⟨l', hl', hstarted, hserved, hother⟩ := connectSlot_step connectCount
            attempts_slot h hbound hentry hread (fun x => ⟨x, rfl⟩)
          exact ⟨l', hl', hstarted, fun _ => hserved, hother⟩
      | longer =>
          exact ⟨l, rfl, h, fun hd => absurd hd.2 (not_resolvable_of_entry (by simp [hentry])), served_same⟩
      | shorter =>
          rw [hentry] at hread
          cases hread

/-- **The callback.** It attempts the connection of an unbound slot exactly when that comes before the first one
    whose server does not resolve. -/
theorem callbackServesAll_iff (net : Network) (connectCount : Int) (m : ServerMap) (w : World)
    (servCfgs : List ServCfg) :
    CallbackServesAll net connectCount m w servCfgs ↔
      Unstarved ((ServerMap.refreshed servCfgs).visits connectCount) (CallbackDuty net w)
        (callbackBlocks net w) := by
  have hserved : ∀ v, CallbackDuty net w v →
      ((∃ a ∈ (servlistCallback net connectCount servCfgs m ⟨w, []⟩).2.acts, Attempts v a) ↔
        v ∈ ((ServerMap.refreshed servCfgs).visits connectCount).takeWhile
          (fun v => !callbackBlocks net w v)) := by
    intro v hduty
    cases servCfgs with
    | nil => simp [servlistCallback, ServerMap.refreshed, ServerMap.visits, ServerMap.servers, ServerMap.empty]
    | cons cfg cfgs =>
        have hiff := Sweep.run_served_iff (callbackVisit net connectCount)
          (fun u l => ∃ a ∈ l.acts, Attempts u a) (started_start net w)
          (fun v (_ : v ∈ (ServerMap.refreshed (cfg :: cfgs)).visits connectCount) l h hb =>
            callbackVisit_blocked h hb)
          (fun v _ l h hb => callbackVisit_step h hb) hduty
        simpa [servlistCallback] using hiff
  unfold CallbackServesAll Unstarved
  constructor
  · rintro hall ⟨s, i⟩ hv hduty
    obtain ⟨hs, hi⟩ := ServerMap.mem_visits.mp hv
    obtain ⟨x, hx⟩ := hall s hs i hi hduty.1 hduty.2
    exact (hserved _ hduty).mp ⟨_, hx, x, rfl⟩
  · intro hall l s hs i hi hw hres
    obtain ⟨a, ha, x, rfl⟩ := (hserved (s, i) ⟨hw, hres⟩).mpr
      (hall _ (ServerMap.mem_visits.mpr ⟨hs, hi⟩) ⟨hw, hres⟩)
    exact ⟨x, ha⟩

end Visit

/-- **When nobody is starved.** For every server map, connect count, registry and network, each of the three
    loops does all it is for exactly when all slots it has something to do for come before the first visit that
    ends it; at startup that visit may be one of them. -/
theorem one_bad_server_iff (net : Network) (connectCount : Int) (m : ServerMap) (w : World)
    (servCfgs : List ServCfg) :
    (HeartServesAll net connectCount m w ↔
      Unstarved (m.visits connectCount) (HeartDuty net w) (heartBlocks net w)) ∧
    (InitServesAll net connectCount m w ↔ InitUnstarved net w (m.visits connectCount)) ∧
    (CallbackServesAll net connectCount m w servCfgs ↔
      Unstarved ((ServerMap.refreshed servCfgs).visits connectCount) (CallbackDuty net w)
        (callbackBlocks net w)) :=
  ⟨heartServesAll_iff net connectCount m w, initServesAll_iff net connectCount m w,
    callbackServesAll_iff net connectCount m w servCfgs⟩

/-! ### A name without an address in front of one with -/

def twoServers : ServerMap :=
  ⟨[(1, ascii "server:nowhere:9000"), (2, ascii "server:10.0.0.1:9000")], by decide⟩

/-- Only one host has an address. -/
def oneHost : Network :=
  ⟨fun host _ => host = ascii "10.0.0.1", fun host _ _ => (false, host, 9000), fun _ _ _ => false⟩

/-- The second server is never tried. -/
theorem second_server_starved :
    ¬ (HeartServesAll oneHost 1 twoServers .start ∧ InitServesAll oneHost 1 twoServers .start) := by
  rintro ⟨hheart, _⟩
  have hres : Resolvable oneHost (ascii "server:10.0.0.1:9000") :=
    ⟨ascii "server", ascii "10.0.0.1", ascii "9000", by decide, by decide⟩
  obtain ⟨x, hx⟩ := (hheart (ascii "server:10.0.0.1:9000") (by decide) 0 (by decide)).2 rfl hres
  have hnothing : (heartWork oneHost 1 twoServers ⟨.start, []⟩).acts = [] := rfl
  rw [hnothing] at hx
  cases hx

end BServer
