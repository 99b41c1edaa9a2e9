import BServer.Base.Run
import BServer.Net.Session

/-!
# `System.World` — all sessions, the two registries, and whoever acts on them

The acceptor, the heartbeat thread and the server-list callback bring sessions up; the io threads complete
reads and writes; any thread may write on a session. Each handler and each registry call takes its lock for its
whole duration, so an execution is a list of events, in any order whatever (`World.step`). No event waits for
another: a read may fail before or after a write of the same session does, a connection attempt for a slot may
come while the slot is taken.

The world keeps two histories that nothing in the program reads: the messages handed to the task queue, each
with the session it was read on, and the `slotLog`, in which order outbound sessions registered under an id and
closed. What every run preserves is `World.Inv`; its first clause is that the outbound registry is a function of
the slot log alone (`holder`).
-/

namespace BServer

open Bytes

/-! ## The slot log -/

/-- An outbound session registers under an id, or closes under the id it carries. -/
inductive SlotEvent where
  | registered (k : Bytes) (x : SessPtr)
  | closed (k : Bytes) (x : SessPtr)
deriving DecidableEq

/-- What an event does to the holder of the id `k`. -/
def SlotEvent.apply (k : Bytes) (h : Option SessPtr) : SlotEvent → Option SessPtr
  | registered k' x => if k = k' then some x else h
  | closed k' _     => if k = k' then none else h

/-- The holder of an id by the log: the last session to register under it, unless one closed under it since. -/
def holder (k : Bytes) (log : List SlotEvent) : Option SessPtr := log.foldl (SlotEvent.apply k) none

theorem holder_snoc (k : Bytes) (log : List SlotEvent) (e : SlotEvent) :
    holder k (log ++ [e]) = e.apply k (holder k log) := by
  rw [holder, List.foldl_append]
  rfl

namespace Session

/-- The entry of the slot log for a session that was just brought up or closed. -/
def slotEvents (x : SessPtr) (s : Session) : List SlotEvent :=
  match s.kind with
  | .server => []
  | .client => if s.shut then [.closed s.id x] else [.registered s.id x]

/-- A session that is reading stamps its id on what it reads. -/
def Stamped (s : Session) : Prop := s.read.pending ≠ none → s.read.readMsg.remoteId = s.id

end Session

/-- The program, with its histories. Sessions are named by their position. -/
structure World where
  sessions   : List Session
  registries : Registries
  pushed     : List (SessPtr × MessageFormat)
  slotLog    : List SlotEvent

namespace World

def start : World := ⟨[], .empty, [], []⟩

/-! ## Events -/

inductive Event where
  /-- the acceptor got a connection -/
  | accept (address : Bytes) (port : Nat)
  /-- `init_server_connection` connects without a slot -/
  | connect (error : Bool) (address : Bytes) (port : Nat)
  /-- the heartbeat or the server-list callback connects slot `i` of the configured server `host` -/
  | connectSlot (error : Bool) (host : Bytes) (i : Nat) (address : Bytes) (port : Nat)
  /-- a thread writes a message it built in `m` -/
  | write (x : SessPtr) (m : MessageFormat) (h : Head) (body : Bytes)
  /-- the `i`-th outstanding write of a session completes -/
  | written (x : SessPtr) (i : Nat) (error : Bool)
  /-- the outstanding read of a session completes with exactly the bytes asked for -/
  | received (x : SessPtr) (d : Bytes)
  /-- the outstanding read of a session fails, or its peer closed -/
  | readError (x : SessPtr)

/-- The id of a configured server. -/
def serverIdOf (host : Bytes) : Bytes := ascii "server:" ++ host

/-- Build a session and bring it up. -/
def bringUp (connectCount : Int) (w : World) (up : BringUp) (address : Bytes) (port : Nat) : World :=
  let x := w.sessions.length
  let out := up.built connectCount x address port .new w.registries
  { w with
    sessions := w.sessions ++ [out.1]
    registries := out.2
    slotLog := w.slotLog ++ out.1.slotEvents x }

/-- `close()` on a session. -/
def close (w : World) (x : SessPtr) : World :=
  match w.sessions[x]? with
  | none => w
  | some s =>
      let out := s.close w.registries
      { w with
        sessions := w.sessions.set x out.1
        registries := out.2
        slotLog := w.slotLog ++ out.1.slotEvents x }

/-- A session goes on as `s`, after handing `msgs` to the task queue. -/
def advance (w : World) (x : SessPtr) (s : Session) (msgs : List MessageFormat) : World :=
  { w with sessions := w.sessions.set x s, pushed := w.pushed ++ msgs.map (fun m => (x, m)) }

/-- What a read handler asked for. -/
def carryOut (w : World) (x : SessPtr) : List ReadAct → World
  | []             => w
  | .push m :: as  => carryOut { w with pushed := w.pushed ++ [(x, m)] } x as
  | .close :: as   => carryOut (w.close x) x as

def step (connectCount : Int) (w : World) : Event → Option World
  | .accept address port => some (w.bringUp connectCount .accept address port)
  | .connect error address port => some (w.bringUp connectCount (.connect error) address port)
  | .connectSlot error host i address port =>
      some (w.bringUp connectCount (.connectFixId error (serverIdOf host) (slotId (serverIdOf host) i))
        address port)
  | .write x m h body =>
      match w.sessions[x]? with
      | none => none
      | some s =>
          let out := s.write.write (m.framed h body)
          -- the write it starts, if any, joins the outstanding ones
          some (w.advance x { s with write := out.1, writing := s.writing ++ out.2 } [])
  | .written x i error =>
      match w.sessions[x]? with
      | none => none
      | some s =>
          if i < s.writing.length then
            let out := s.write.handleWrite error
            let w := w.advance x { s with write := out.1, writing := s.writing.eraseIdx i ++ out.2.1 } []
            some (if out.2.2 then w.close x else w)
          else none
  | .received x d =>
      match w.sessions[x]? with
      | none => none
      | some s =>
          match s.read.pending with
          | none => none
          | some p =>
              -- `async_read` succeeds only with exactly the bytes it was asked for
              if d.length = p.count then
                let out := s.read.complete p d
                some ((w.advance x { s with read := out.1 } []).carryOut x out.2)
              else none
  | .readError x =>
      match w.sessions[x]? with
      | none => none
      | some s =>
          match s.read.pending with
          | none => none
          | some p =>
              let out := s.read.fail p
              some ((w.advance x { s with read := out.1 } []).carryOut x out.2)

/-! ## What one event does -/

/-- A session that goes on keeps its kind, id and shutdown, and its stamp. -/
structure Advances (s s' : Session) (msgs : List MessageFormat) : Prop where
  kind    : s'.kind = s.kind
  id      : s'.id = s.id
  shut    : s'.shut = s.shut
  stamped : s.Stamped → s'.Stamped
  pushed  : s.Stamped → ∀ m ∈ msgs, m.remoteId = s.id

/-- A way up that the program takes: a fixed slot belongs to a configured server. -/
def Configured : BringUp → Prop
  | .connectFixId _ serverId remoteId =>
      ∃ host i, serverId = serverIdOf host ∧ remoteId = slotId (serverIdOf host) i
  | _ => True

theorem Advances.writes (s : Session) (side : WriteSide) (ws : List AsyncWrite) :
    Advances s { s with write := side, writing := ws } [] :=
  ⟨rfl, rfl, rfl, fun h => h, fun _ _ hm => by cases hm⟩

/-- A completed read keeps the stamp, and the message it pushes carries it. -/
theorem Advances.reads {s : Session} {p : AsyncRead} (hp : s.read.pending = some p) (d : Bytes)
    {msgs : List MessageFormat} (hm : ∀ m ∈ msgs, m = (s.read.complete p d).1.readMsg) :
    Advances s { s with read := (s.read.complete p d).1 } msgs := by
  have hpending : s.read.pending ≠ none := by
    rw [hp]
    exact Option.some_ne_none p
  have hstamp := (ReadSide.complete_spec s.read p d).stamp
  refine ⟨rfl, rfl, rfl, fun h _ => hstamp.trans (h hpending), ?_⟩
  intro h m hmem
  rw [hm m hmem]
  exact hstamp.trans (h hpending)

theorem advance_push (w : World) (x : SessPtr) (s : Session) (m : MessageFormat) :
    { w.advance x s [] with pushed := (w.advance x s []).pushed ++ [(x, m)] } = w.advance x s [m] := by
  simp [advance]

/-- **What an event can do.** It brings a session up; or a session goes on, and is closed or not. -/
theorem step_cases {connectCount : Int} {w w' : World} {e : Event} (hs : step connectCount w e = some w') :
    (∃ up address port, Configured up ∧ w' = w.bringUp connectCount up address port) ∨
    ∃ x s s' msgs, w.sessions[x]? = some s ∧ Advances s s' msgs ∧
      (w' = w.advance x s' msgs ∨ w' = (w.advance x s' msgs).close x) := by
  cases e with
  | accept address port =>
      cases hs
      exact Or.inl ⟨.accept, address, port, trivial, rfl⟩
  | connect error address port =>
      cases hs
      exact Or.inl ⟨.connect error, address, port, trivial, rfl⟩
  | connectSlot error host i address port =>
      cases hs
      exact Or.inl ⟨.connectFixId error _ _, address, port, ⟨host, i, rfl, rfl⟩, rfl⟩
  | write x m h body =>
      simp only [step] at hs
      split at hs
      · cases hs
      · next s hx =>
          cases hs
          exact Or.inr ⟨x, s, _, [], hx, .writes s _ _, Or.inl rfl⟩
  | written x i error =>
      simp only [step] at hs
      split at hs
      · cases hs
      · next s hx =>
          split at hs
          · cases hs
            refine Or.inr ⟨x, s, _, [], hx, .writes s (s.write.handleWrite error).1
              (s.writing.eraseIdx i ++ (s.write.handleWrite error).2.1), ?_⟩
            -- closed on an error, and only then
            split
            · exact Or.inr rfl
            · exact Or.inl rfl
          · cases hs
  | received x d =>
      simp only [step] at hs
      split at hs
      · cases hs
      · next s hx =>
          split at hs
          · cases hs
          · next p hp =>
              split at hs
              · cases hs
                -- the handler only starts the next read, or pushes the message before it does, or closes
                rcases (ReadSide.complete_spec s.read p d).acts with ha | ha | ha
                · rw [ha]
                  exact Or.inr ⟨x, s, _, [], hx, .reads hp d (fun _ hm => by cases hm), Or.inl rfl⟩
                · rw [ha]
                  exact Or.inr ⟨x, s, _, [(s.read.complete p d).1.readMsg], hx,
                    .reads hp d (fun _ hm => List.mem_singleton.mp hm), Or.inl (advance_push _ _ _ _)⟩
                · rw [ha]
                  exact Or.inr ⟨x, s, _, [], hx, .reads hp d (fun _ hm => by cases hm), Or.inr rfl⟩
              · cases hs
  | readError x =>
      simp only [step] at hs
      split at hs
      · cases hs
      · next s hx =>
          split at hs
          · cases hs
          · next p hp =>
              cases hs
              rw [ReadSide.fail_eq]
              -- nothing is outstanding any more, so there is nothing left to stamp
              refine Or.inr ⟨x, s, { s with read := { s.read with pending := none } }, [], hx, ?_, Or.inr rfl⟩
              exact ⟨rfl, rfl, rfl, fun _ hn => absurd rfl hn, fun _ _ hm => by cases hm⟩

/-! ## What every run preserves -/

/-- **The invariant.** The outbound registry is what the slot log says; the two kinds of session have ids of
    two shapes; every session stamps its own id on what it reads, so a queued message knows where it came
    from; a session whose close is logged is shut. -/
structure Inv (w : World) : Prop where
  log     : ∀ k, w.registries.peerMapClient.fixGet k = holder k w.slotLog
  named   : ∀ k x, SlotEvent.registered k x ∈ w.slotLog → ∃ rest, k = ascii "server:" ++ rest
  inbound : ∀ (x : SessPtr) (s : Session), w.sessions[x]? = some s → s.kind = .server →
    ∃ rest, s.id = ascii "client:" ++ rest
  stamped : ∀ (x : SessPtr) (s : Session), w.sessions[x]? = some s → s.Stamped
  pushed  : ∀ x m, (x, m) ∈ w.pushed → ∃ s : Session, w.sessions[x]? = some s ∧ m.remoteId = s.id
  closed  : ∀ k x, SlotEvent.closed k x ∈ w.slotLog →
    ∃ s : Session, w.sessions[x]? = some s ∧ s.shut = true

theorem inv_start : Inv start where
  log := fun _ => rfl
  named := fun _ _ h => by cases h
  inbound := fun _ _ h => by cases h
  stamped := fun _ _ h => by cases h
  pushed := fun _ _ h => by cases h
  closed := fun _ _ h => by cases h

/-- Session `x` after the list was changed at a valid position `y`. -/
theorem getElem?_set_some {l : List Session} {x y : Nat} {a s t : Session} (hy : l[y]? = some a)
    (h : (l.set y t)[x]? = some s) : (x = y ∧ s = t) ∨ (x ≠ y ∧ l[x]? = some s) := by
  by_cases hxy : x = y
  · subst hxy
    rw [List.getElem?_set_self (List.getElem?_eq_some_iff.mp hy).1] at h
    exact Or.inl ⟨rfl, (Option.some.inj h).symm⟩
  · rw [List.getElem?_set_ne (fun he => hxy he.symm)] at h
    exact Or.inr ⟨hxy, h⟩

/-- A session that was there before a change at `y` is there after it, itself or the new one. -/
theorem exists_getElem?_set {l : List Session} {x y : Nat} {a s t : Session} (hy : l[y]? = some a)
    (h : l[x]? = some s) : ∃ s', (l.set y t)[x]? = some s' ∧ (s' = s ∨ (s = a ∧ s' = t)) := by
  by_cases hxy : x = y
  · subst hxy
    rw [hy] at h
    cases h
    exact ⟨t, List.getElem?_set_self (List.getElem?_eq_some_iff.mp hy).1, Or.inr ⟨rfl, rfl⟩⟩
  · refine ⟨s, ?_, Or.inl rfl⟩
    rw [List.getElem?_set_ne (fun he => hxy he.symm)]
    exact h

/-- A session of a list with one more at its end. -/
theorem getElem?_snoc_some {l : List Session} {a t : Session} {y : Nat} (h : (l ++ [a])[y]? = some t) :
    l[y]? = some t ∨ (y = l.length ∧ t = a) := by
  rcases Nat.lt_or_ge y l.length with hy | hy
  · rw [List.getElem?_append_left hy] at h
    exact Or.inl h
  · rw [List.getElem?_append_right hy] at h
    have hlt : y - l.length < 1 := (List.getElem?_eq_some_iff.mp h).1
    have hz : y - l.length = 0 := by omega
    rw [hz] at h
    exact Or.inr ⟨by omega, (Option.some.inj h).symm⟩

theorem Inv.advance {w : World} (h : Inv w) {x : SessPtr} {s s' : Session} {msgs : List MessageFormat}
    (hx : w.sessions[x]? = some s) (ha : Advances s s' msgs) : Inv (w.advance x s' msgs) where
  log := h.log
  named := h.named
  inbound := by
    intro y t hy hk
    rcases getElem?_set_some hx hy with ⟨_, rfl⟩ | ⟨_, hy⟩
    · rw [ha.id]
      exact h.inbound x s hx (ha.kind ▸ hk)
    · exact h.inbound y t hy hk
  stamped := by
    intro y t hy
    rcases getElem?_set_some hx hy with ⟨_, rfl⟩ | ⟨_, hy⟩
    · exact ha.stamped (h.stamped x s hx)
    · exact h.stamped y t hy
  pushed := by
    intro y m hm
    have hold : ∃ t, w.sessions[y]? = some t ∧ m.remoteId = t.id := by
      rcases List.mem_append.mp hm with hm | hm
      · exact h.pushed y m hm
      · -- a message pushed now carries the stamp of the session it was read on
        obtain ⟨m', hm', he⟩ := List.mem_map.mp hm
        cases he
        exact ⟨s, hx, ha.pushed (h.stamped x s hx) m hm'⟩
    obtain ⟨t, ht, hid⟩ := hold
    obtain ⟨t', ht', he⟩ := exists_getElem?_set (t := s') hx ht
    refine ⟨t', ht', ?_⟩
    rcases he with rfl | ⟨rfl, rfl⟩
    · exact hid
    · rw [hid, ha.id]
  closed := by
    intro k y hc
    obtain ⟨t, ht, hshut⟩ := h.closed k y hc
    obtain ⟨t', ht', he⟩ := exists_getElem?_set (t := s') hx ht
    refine ⟨t', ht', ?_⟩
    rcases he with rfl | ⟨rfl, rfl⟩
    · exact hshut
    · rw [ha.shut, hshut]

theorem kind_cases (s : Session) : s.kind = .server ∨ s.kind = .client := by
  cases s.kind with
  | server => exact Or.inl rfl
  | client => exact Or.inr rfl

theorem slotEvents_server {s : Session} (x : SessPtr) (hk : s.kind = .server) : s.slotEvents x = [] := by
  simp only [Session.slotEvents, hk]

theorem slotEvents_shut {s : Session} (x : SessPtr) (hk : s.kind = .client) (hs : s.shut = true) :
    s.slotEvents x = [.closed s.id x] := by
  simp only [Session.slotEvents, hk, hs, if_true]

theorem slotEvents_open {s : Session} (x : SessPtr) (hk : s.kind = .client) (hs : s.shut = false) :
    s.slotEvents x = [.registered s.id x] := by
  simp only [Session.slotEvents, hk, hs, Bool.false_eq_true, if_false]

/-- What a session leaves in the log: it is outbound, and registered or closed under its id. -/
theorem slotEvents_cases {s : Session} {x : SessPtr} {e : SlotEvent} (he : e ∈ s.slotEvents x) :
    s.kind = .client ∧ (s.shut = false ∧ e = .registered s.id x ∨ s.shut = true ∧ e = .closed s.id x) := by
  rcases kind_cases s with hk | hk
  · rw [slotEvents_server x hk] at he
    cases he
  · refine ⟨hk, ?_⟩
    cases hs : s.shut with
    | true =>
        rw [slotEvents_shut x hk hs] at he
        exact Or.inr ⟨rfl, List.mem_singleton.mp he⟩
    | false =>
        rw [slotEvents_open x hk hs] at he
        exact Or.inl ⟨rfl, List.mem_singleton.mp he⟩

/-! ### The list of sessions after one was brought up -/

section Sessions

variable {w : World} {connectCount : Int} {up : BringUp} {address : Bytes} {port : Nat} {y : SessPtr} {t : Session}

theorem sessions_bringUp_old (hy : w.sessions[y]? = some t) :
    (w.bringUp connectCount up address port).sessions[y]? = some t :=
  (List.getElem?_append_left (List.getElem?_eq_some_iff.mp hy).1).trans hy

theorem sessions_bringUp_last : (w.bringUp connectCount up address port).sessions[w.sessions.length]?
    = some (up.built connectCount w.sessions.length address port .new w.registries).1 :=
  List.getElem?_concat_length

theorem sessions_bringUp_cases (hy : (w.bringUp connectCount up address port).sessions[y]? = some t) :
    w.sessions[y]? = some t ∨ (y = w.sessions.length ∧
      t = (up.built connectCount w.sessions.length address port .new w.registries).1) :=
  getElem?_snoc_some hy

end Sessions

theorem close_eq {w : World} {x : SessPtr} {s : Session} (hx : w.sessions[x]? = some s) :
    w.close x = { w with
      sessions := w.sessions.set x { s with shut := true }
      registries := s.onClose w.registries
      slotLog := w.slotLog ++ ({ s with shut := true } : Session).slotEvents x } := by
  rw [close, hx]
  rfl

theorem sessions_close {w : World} {x : SessPtr} {s : Session} (hx : w.sessions[x]? = some s) :
    (w.close x).sessions = w.sessions.set x { s with shut := true } := by rw [close_eq hx]

theorem Inv.close {w : World} (h : Inv w) {x : SessPtr} {s : Session} (hx : w.sessions[x]? = some s) :
    Inv (w.close x) := by
  rw [close_eq hx]
  have hevent : ∀ e ∈ ({ s with shut := true } : Session).slotEvents x, e = .closed s.id x := by
    intro e he
    rcases (slotEvents_cases he).2 with ⟨hshut, _⟩ | ⟨_, he⟩
    · cases hshut
    · exact he
  constructor
  case log =>
    intro k
    show (s.onClose w.registries).peerMapClient.fixGet k = holder k (w.slotLog ++ _)
    rcases kind_cases s with hk | hk
    · -- an accepted session is closed in the other registry, and is not in the log
      rw [slotEvents_server (s := { s with shut := true }) x hk, List.append_nil, ← h.log k]
      exact congrArg (fun m => m.fixGet k) (Session.close_server hk w.registries)
    · rw [slotEvents_shut (s := { s with shut := true }) x hk rfl, holder_snoc, SlotEvent.apply, ← h.log k]
      exact Session.close_fixGet hk w.registries k
  case named =>
    intro k y hm
    rcases List.mem_append.mp hm with hm | hm
    · exact h.named k y hm
    · cases hevent _ hm
  case inbound =>
    intro y t hy hk
    rcases getElem?_set_some hx hy with ⟨_, rfl⟩ | ⟨_, hy⟩
    · exact h.inbound x s hx hk
    · exact h.inbound y t hy hk
  case stamped =>
    intro y t hy
    rcases getElem?_set_some hx hy with ⟨_, rfl⟩ | ⟨_, hy⟩
    · exact h.stamped x s hx
    · exact h.stamped y t hy
  case pushed =>
    intro y m hm
    obtain ⟨t, ht, hid⟩ := h.pushed y m hm
    obtain ⟨t', ht', he⟩ := exists_getElem?_set (t := { s with shut := true }) hx ht
    refine ⟨t', ht', ?_⟩
    rcases he with rfl | ⟨rfl, rfl⟩
    · exact hid
    · exact hid
  case closed =>
    intro k y hm
    rcases List.mem_append.mp hm with hm | hm
    · obtain ⟨t, ht, hshut⟩ := h.closed k y hm
      obtain ⟨t', ht', he⟩ := exists_getElem?_set (t := { s with shut := true }) hx ht
      refine ⟨t', ht', ?_⟩
      -- shutting another session, or the same one again, leaves this one shut
      rcases he with rfl | ⟨rfl, rfl⟩
      · exact hshut
      · rfl
    · cases hevent _ hm
      exact ⟨_, List.getElem?_set_self (List.getElem?_eq_some_iff.mp hx).1, rfl⟩

/-- An open outbound session of a configured server goes by the name of a server. -/
theorem Configured.named {up : BringUp} (hc : Configured up) (hk : up.kind = .client) {connectCount : Int}
    {x : SessPtr} {address : Bytes} {port : Nat} {readMsg : MessageFormat} {r : Registries}
    (h : (up.built connectCount x address port readMsg r).1.shut = false) :
    ∃ rest, (up.built connectCount x address port readMsg r).1.id = ascii "server:" ++ rest := by
  rcases BringUp.built_client_id connectCount x address port readMsg r hk h
    with ⟨error, serverId, hup⟩ | ⟨i, hi⟩
  · rw [hup] at hc
    obtain ⟨host, i, _, hid⟩ := hc
    refine ⟨host ++ colon :: decimal i, ?_⟩
    rw [hup, ← List.append_assoc]
    rw [hup] at hid
    exact hid
  · refine ⟨(address ++ colon :: decimal port) ++ colon :: decimal i, ?_⟩
    rw [hi, slotId, List.append_assoc]

/-- What a new session leaves in the slot log. -/
theorem slotEvents_bringUp {connectCount : Int} {x : SessPtr} {up : BringUp} {address : Bytes} {port : Nat}
    {readMsg : MessageFormat} {r : Registries} (k : Bytes) (log : List SlotEvent)
    (hlog : r.peerMapClient.fixGet k = holder k log) :
    (up.built connectCount x address port readMsg r).2.peerMapClient.fixGet k
      = holder k (log ++
          (up.built connectCount x address port readMsg r).1.slotEvents x) := by
  have hkind := BringUp.built_kind connectCount x address port readMsg r up
  cases hk : up.kind with
  | server =>
      rw [slotEvents_server x (hkind.trans hk), List.append_nil, ← hlog,
        (BringUp.built_server connectCount x address port readMsg r hk).2]
  | client =>
      rw [BringUp.built_client connectCount x address port readMsg r hk k, Session.boundAfter, hlog]
      cases hs : (up.built connectCount x address port readMsg r).1.shut with
      | true =>
          rw [slotEvents_shut x (hkind.trans hk) hs, holder_snoc, SlotEvent.apply]
          rfl
      | false =>
          rw [slotEvents_open x (hkind.trans hk) hs, holder_snoc, SlotEvent.apply]
          rfl

/-- A session that is open or refused stamps its id, if it reads at all. -/
theorem stamped_bringUp (up : BringUp) (connectCount : Int) (x : SessPtr) (address : Bytes) (port : Nat)
    (readMsg : MessageFormat) (r : Registries) :
    (up.built connectCount x address port readMsg r).1.Stamped := by
  intro hp
  rcases up.built_spec connectCount x address port readMsg r with ho | hr
  · exact ho.boundary.2
  · exact absurd hr.idle hp

theorem Inv.bringUp {w : World} (h : Inv w) (connectCount : Int) {up : BringUp} (hc : Configured up)
    (address : Bytes) (port : Nat) : Inv (w.bringUp connectCount up address port) := by
  have hkind := BringUp.built_kind connectCount w.sessions.length address port .new w.registries up
  constructor
  case log => exact fun k => slotEvents_bringUp k w.slotLog (h.log k)
  case named =>
    intro k y hm
    rcases List.mem_append.mp hm with hm | hm
    · exact h.named k y hm
    · -- only an outbound session that is open has just registered
      obtain ⟨hk, ⟨hopen, he⟩ | ⟨_, he⟩⟩ := slotEvents_cases hm
      · cases he
        exact hc.named (hkind.symm.trans hk) hopen
      · cases he
  case inbound =>
    intro y t hy hk
    rcases sessions_bringUp_cases hy with hy | ⟨_, rfl⟩
    · exact h.inbound y t hy hk
    · exact ⟨_, (BringUp.built_server connectCount _ address port .new w.registries
        (hkind.symm.trans hk)).1⟩
  case stamped =>
    intro y t hy
    rcases sessions_bringUp_cases hy with hy | ⟨_, rfl⟩
    · exact h.stamped y t hy
    · exact stamped_bringUp _ _ _ _ _ _ _
  case pushed =>
    intro y m hm
    obtain ⟨t, ht, hid⟩ := h.pushed y m hm
    exact ⟨t, sessions_bringUp_old ht, hid⟩
  case closed =>
    intro k y hm
    rcases List.mem_append.mp hm with hm | hm
    · obtain ⟨t, ht, hs⟩ := h.closed k y hm
      exact ⟨t, sessions_bringUp_old ht, hs⟩
    · -- only an outbound attempt that was refused is closed right away
      obtain ⟨_, ⟨_, he⟩ | ⟨hs, he⟩⟩ := slotEvents_cases hm
      · cases he
      · cases he
        exact ⟨_, sessions_bringUp_last, hs⟩

theorem Inv.step {connectCount : Int} {w w' : World} {e : Event} (h : Inv w)
    (hs : World.step connectCount w e = some w') : Inv w' := by
  rcases step_cases hs with ⟨up, address, port, hc, rfl⟩ | ⟨x, s, s', msgs, hx, ha, rfl | rfl⟩
  · exact h.bringUp connectCount hc address port
  · exact h.advance hx ha
  · have hx' : (w.advance x s' msgs).sessions[x]? = some s' :=
      List.getElem?_set_self (List.getElem?_eq_some_iff.mp hx).1
    exact (h.advance hx ha).close hx'

theorem inv_run {connectCount : Int} {es : List Event} {w : World}
    (hrun : Run.run (World.step connectCount) start es = some w) : Inv w :=
  Run.run_invariant (World.step connectCount) inv_start (fun _ _ _ h hs => h.step hs) hrun

end World

end BServer
