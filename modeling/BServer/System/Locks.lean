import BServer.Base.LockOrder
import BServer.Net.Session

/-!
# `System.Locks` — which mutexes the threads take, and in which order

Five kinds of mutex are ever locked: the one of a session, those of the two registries, the one of the task
queue, and the two of the counters of `configwrap`. Each function is modelled by what it does with them, call by
call. One function takes a mutex inside another: `handle_write` holds its session's while it reports an error,
and there `close` erases the session from a registry. No function goes the other way: a registry drops sessions
while its mutex is held, but the destructor of a session takes none. So the threads of the server cannot lock
each other out, whatever each of them calls (`locks_never_deadlock`).
-/

namespace BServer

namespace Locks

open LockOrder

inductive Mutex where
  /-- `session_base::mutex_` -/
  | session (x : SessPtr)
  /-- `peer_handle_map::mutex_`, of `__PEER_MAP` or of `__PEER_MAP_CLIENT` -/
  | peerMap (k : SessionKind)
  /-- `task_base::mutex_` -/
  | tasks
  /-- `configwrap::mutex_` -/
  | id
  /-- `configwrap::mutex_sendcount_` -/
  | sendcount
deriving DecidableEq

/-- A registry's mutex may be taken inside any other. -/
def rank : Mutex → Nat
  | .peerMap _ => 1
  | _          => 0

abbrev Ops := List (Op Mutex)

/-- A function that holds one mutex all the time, and takes no other. -/
def guarded (l : Mutex) : Ops := scopedLock l []

/-! ## The registries -/

def set (k : SessionKind) : Ops := guarded (.peerMap k)

def get (k : SessionKind) : Ops := guarded (.peerMap k)

def erase (k : SessionKind) : Ops := guarded (.peerMap k)

def fixSet : Ops := guarded (.peerMap .client)

def fixGet : Ops := get .client

def simpleGet : Ops := guarded (.peerMap .client)

/-- The `erase` that finds the server's id in the slot's: it looks at the id before it locks. -/
def eraseSlot (fourParts : Bool) : Ops := if fourParts then guarded (.peerMap .client) else []

def closeAll : Ops := guarded (.peerMap .client)

/-! ## Sessions -/

def write (x : SessPtr) : Ops := guarded (.session x)

/-- How a connection of `peer_handle_client` comes out. -/
inductive Attempt where
  | error
  /-- `open` answered `-1` -/
  | refused
  | opened

/-- `open`, of a server session, of a client session with a slot of its own, or of another. -/
def doOpen (k : SessionKind) (fixConnect : Bool) : Ops :=
  match k, fixConnect with
  | .client, true => fixSet
  | k, _          => set k

/-- `close`, of a session that does not reconnect. -/
def closeOnly (k : SessionKind) : Ops := erase k

def handleConnect (k : SessionKind) (fixConnect : Bool) : Attempt → Ops
  | .error   => closeOnly k
  | .refused => doOpen k fixConnect ++ closeOnly k
  | .opened  => doOpen k fixConnect

/-- `close`, with `on_close`: `reconnect` is how the connection that follows comes out, where the session asks for
one. The new session does not ask for another. -/
def close (k : SessionKind) (reconnect : Option Attempt) : Ops :=
  match k, reconnect with
  | .client, some a => erase .client ++ handleConnect .client true a
  | k, _            => erase k

def handleWrite (x : SessPtr) (k : SessionKind) (error : Bool) (reconnect : Option Attempt) : Ops :=
  scopedLock (.session x) (if error then close k reconnect else [])

def push : Ops := guarded .tasks

def afterBodyGet (cmd : Nat) : Ops := if cmd = 1 then [] else push

def handleReadBody (k : SessionKind) (error : Bool) (cmd : Nat) (reconnect : Option Attempt) : Ops :=
  if error then close k reconnect else afterBodyGet cmd

def handleReadHeader (k : SessionKind) (error : Bool) (logicStatus : Int) (bodyLength cmd : Nat)
    (reconnect : Option Attempt) : Ops :=
  if error then close k reconnect
  else if logicStatus = 0 then
    if bodyLength = 0 then handleReadBody k false cmd reconnect else []
  else if logicStatus = -1 then close k reconnect
  else []

/-! ## Workers -/

def tryPop : Ops := guarded .tasks

/-- Woken so often, it looks at the queue each time; it leaves with a message, or by `stop thread!`. -/
def waitAndPop (wakeups : Nat) : Ops :=
  scopedLock .tasks ((List.range wakeups).flatMap fun _ => [.release .tasks, .acquire .tasks])

def configId : Ops := guarded .id

def sendcount : Ops := guarded .sendcount

/-- `dispatch_to_client`, `dispatch_to_server` and `fix_dispatch_to_server`: `found` is what the registry answers,
which is not asked for an empty id. -/
def dispatch (k : SessionKind) (emptyId : Bool) (found : Option SessPtr) : Ops :=
  if emptyId then []
  else get k ++ match found with
    | some x => write x ++ sendcount
    | none   => []

/-! ## What the threads run -/

/-- What an `io_service`, a worker, the heartbeat or a callback runs. -/
inductive Call where
  /-- `handle_accept`, of a connection that came: `open` answers `0` -/
  | handleAccept
  /-- `write`, posted or called -/
  | write (x : SessPtr)
  | handleWrite (x : SessPtr) (k : SessionKind) (error : Bool) (reconnect : Option Attempt)
  | handleReadHeader (k : SessionKind) (error : Bool) (logicStatus : Int) (bodyLength cmd : Nat)
      (reconnect : Option Attempt)
  | handleReadBody (k : SessionKind) (error : Bool) (cmd : Nat) (reconnect : Option Attempt)
  /-- a turn of `task_base::work`: what `try_pop` answers, how often the worker is woken otherwise, and what
  `do_work` dispatches -/
  | work (popped : Bool) (wakeups : Nat) (dispatches : List (SessionKind × Bool × Option SessPtr))
  /-- a slot of a server, looked at by `heart_task_thread::work` or `servlist_callback`: the connection it makes
  where none is there -/
  | visit (connects : Option Attempt)
  | simpleGet
  | eraseSlot (fourParts : Bool)
  | closeAll
  | configId

def Call.ops : Call → Ops
  | .handleAccept => handleConnect .server false .opened
  | .write x => Locks.write x
  | .handleWrite x k error reconnect => Locks.handleWrite x k error reconnect
  | .handleReadHeader k error status bodyLength cmd reconnect =>
      Locks.handleReadHeader k error status bodyLength cmd reconnect
  | .handleReadBody k error cmd reconnect => Locks.handleReadBody k error cmd reconnect
  | .work popped wakeups dispatches =>
      tryPop ++ (if popped then [] else waitAndPop wakeups)
        ++ dispatches.flatMap fun d => dispatch d.1 d.2.1 d.2.2
  | .visit connects => fixGet ++ match connects with
      | some a => handleConnect .client true a
      | none   => []
  | .simpleGet => Locks.simpleGet
  | .eraseSlot fourParts => Locks.eraseSlot fourParts
  | .closeAll => Locks.closeAll
  | .configId => Locks.configId

/-- A thread that is about to run these. -/
def begin (calls : List Call) : Thread Mutex := ⟨[], calls.flatMap Call.ops⟩

/-! ## Every function takes its mutexes in order -/

/-- What can stand where the mutexes `held` are held. -/
abbrev Sound (held : List Mutex) (ops : Ops) : Prop := Balanced rank held ops

theorem guarded_sound {held : List Mutex} {l : Mutex} (h : ∀ m ∈ held, rank m < rank l) :
    Sound held (guarded l) := Balanced.scopedLock rank h (Balanced.nil rank _)

theorem guarded_alone (l : Mutex) : Sound [] (guarded l) :=
  guarded_sound fun _ hm => (List.not_mem_nil hm).elim

/-- The registries are free to use inside a session's mutex. -/
theorem peerMap_sound {held : List Mutex} (h : ∀ m ∈ held, rank m = 0) (k : SessionKind) :
    Sound held (guarded (.peerMap k)) := by
  refine guarded_sound fun m hm => ?_
  rw [h m hm]
  exact Nat.one_pos

theorem doOpen_sound {held : List Mutex} (h : ∀ m ∈ held, rank m = 0) (k : SessionKind) (fix : Bool) :
    Sound held (doOpen k fix) := by
  unfold doOpen
  split
  · exact peerMap_sound h .client
  · exact peerMap_sound h k

theorem handleConnect_sound {held : List Mutex} (h : ∀ m ∈ held, rank m = 0) (k : SessionKind) (fix : Bool)
    (a : Attempt) : Sound held (handleConnect k fix a) := by
  cases a with
  | error => exact peerMap_sound h k
  | refused => exact (doOpen_sound h k fix).append rank (peerMap_sound h k)
  | opened => exact doOpen_sound h k fix

theorem close_sound {held : List Mutex} (h : ∀ m ∈ held, rank m = 0) (k : SessionKind)
    (reconnect : Option Attempt) : Sound held (close k reconnect) := by
  unfold close
  split
  · next a => exact (peerMap_sound h .client).append rank (handleConnect_sound h .client true a)
  · exact peerMap_sound h k

theorem none_held : ∀ m ∈ ([] : List Mutex), rank m = 0 := fun _ hm => (List.not_mem_nil hm).elim

/-- The one function that takes a mutex while it holds another. -/
theorem handleWrite_sound (x : SessPtr) (k : SessionKind) (error : Bool) (reconnect : Option Attempt) :
    Sound [] (handleWrite x k error reconnect) := by
  refine Balanced.scopedLock rank (fun _ hm => (List.not_mem_nil hm).elim) ?_
  have hsession : ∀ m ∈ [Mutex.session x], rank m = 0 := by
    intro m hm
    rw [List.mem_singleton.mp hm]
    rfl
  cases error with
  | true => exact close_sound hsession k reconnect
  | false => exact Balanced.nil rank _

theorem handleReadBody_sound (k : SessionKind) (error : Bool) (cmd : Nat) (reconnect : Option Attempt) :
    Sound [] (handleReadBody k error cmd reconnect) := by
  unfold handleReadBody afterBodyGet
  split
  · exact close_sound none_held k reconnect
  · split
    · exact Balanced.nil rank _
    · exact guarded_alone .tasks

theorem handleReadHeader_sound (k : SessionKind) (error : Bool) (status : Int) (bodyLength cmd : Nat)
    (reconnect : Option Attempt) : Sound [] (handleReadHeader k error status bodyLength cmd reconnect) := by
  unfold handleReadHeader
  split
  · exact close_sound none_held k reconnect
  · split
    · split
      · exact handleReadBody_sound k false cmd reconnect
      · exact Balanced.nil rank _
    · split
      · exact close_sound none_held k reconnect
      · exact Balanced.nil rank _

theorem waitAndPop_sound (wakeups : Nat) : Sound [] (waitAndPop wakeups) := by
  refine Balanced.scopedLock rank (fun _ hm => (List.not_mem_nil hm).elim) ?_
  exact Balanced.flatMap rank fun _ _ => Balanced.relock rank .tasks

theorem dispatch_sound (k : SessionKind) (emptyId : Bool) (found : Option SessPtr) :
    Sound [] (dispatch k emptyId found) := by
  unfold dispatch
  split
  · exact Balanced.nil rank _
  · refine (guarded_alone (.peerMap k)).append rank ?_
    cases found with
    | none => exact Balanced.nil rank _
    | some x => exact (guarded_alone (.session x)).append rank (guarded_alone .sendcount)

theorem Call.sound (c : Call) : Sound [] c.ops := by
  cases c with
  | handleAccept => exact handleConnect_sound none_held .server false .opened
  | write x => exact guarded_alone (.session x)
  | handleWrite x k error reconnect => exact handleWrite_sound x k error reconnect
  | handleReadHeader k error status bodyLength cmd reconnect =>
      exact handleReadHeader_sound k error status bodyLength cmd reconnect
  | handleReadBody k error cmd reconnect => exact handleReadBody_sound k error cmd reconnect
  | work popped wakeups dispatches =>
      have hpop : Sound [] (tryPop ++ if popped then [] else waitAndPop wakeups) := by
        refine (guarded_alone .tasks).append rank ?_
        split
        · exact Balanced.nil rank _
        · exact waitAndPop_sound wakeups
      exact hpop.append rank (Balanced.flatMap rank fun d _ => dispatch_sound d.1 d.2.1 d.2.2)
  | visit connects =>
      refine (guarded_alone (.peerMap .client)).append rank ?_
      cases connects with
      | none => exact Balanced.nil rank _
      | some a => exact handleConnect_sound none_held .client true a
  | simpleGet => exact guarded_alone (.peerMap .client)
  | eraseSlot fourParts =>
      show Sound [] (Locks.eraseSlot fourParts)
      unfold Locks.eraseSlot
      split
      · exact guarded_alone (.peerMap .client)
      · exact Balanced.nil rank _
  | closeAll => exact guarded_alone (.peerMap .client)
  | configId => exact guarded_alone .id

theorem begin_disciplined (threads : List (List Call)) : Disciplined rank (threads.map begin) := by
  intro t ht
  obtain ⟨calls, _, rfl⟩ := List.mem_map.mp ht
  exact (Balanced.flatMap rank fun c _ => c.sound).ordered rank

theorem begin_exclusive (threads : List (List Call)) : Exclusive (threads.map begin) := by
  intro i j t u l ht _ hl _
  obtain ⟨calls, _, rfl⟩ := List.mem_map.mp (List.mem_of_getElem? ht)
  cases hl

/-! ## Waiting while holding -/

/-- A thread that asks for a mutex while it holds one asks for a registry's, and holds no registry's. -/
theorem nested {t : Thread Mutex} (h : Ordered rank t.held t.rest) {l : Mutex} {rest : Ops}
    (hrest : t.rest = .acquire l :: rest) :
    t.held = [] ∨ (∃ k, l = .peerMap k) ∧ ∀ k, Mutex.peerMap k ∉ t.held := by
  rw [hrest] at h
  cases hheld : t.held with
  | nil => exact Or.inl rfl
  | cons m ms =>
      rw [hheld] at h
      have hm := h.1 m (List.mem_cons_self ..)
      cases l with
      | peerMap k =>
          refine Or.inr ⟨⟨k, rfl⟩, fun k' hk' => ?_⟩
          exact Nat.lt_irrefl 1 (h.1 _ hk')
      | session x => exact (Nat.not_lt_zero _ hm).elim
      | tasks => exact (Nat.not_lt_zero _ hm).elim
      | id => exact (Nat.not_lt_zero _ hm).elim
      | sendcount => exact (Nat.not_lt_zero _ hm).elim

end Locks

open LockOrder Locks in
/-- **The mutexes of the server.** Whatever the threads call, and however their calls interleave: no mutex has two
holders; a thread that waits for a mutex while it holds one waits for a registry's, and does not hold one; the
threads do not lock each other out, as where none of them can go on, all are done and hold nothing; and every run
can be completed, in as many operations as the calls make. -/
theorem locks_never_deadlock (threads : List (List Call)) {is : List Nat} {us : List (Thread Mutex)}
    (hrun : Run.run LockOrder.step (threads.map begin) is = some us) :
    Exclusive us ∧
    (∀ t ∈ us, ∀ l rest, t.rest = .acquire l :: rest →
      t.held = [] ∨ (∃ k, l = .peerMap k) ∧ ∀ k, Mutex.peerMap k ∉ t.held) ∧
    ((∀ i, LockOrder.step us i = none) → Done us) ∧
    ∃ more vs, Run.run LockOrder.step us more = some vs ∧ Done vs ∧
      is.length + more.length = remaining (threads.map begin) := by
  obtain ⟨hdis, hex⟩ := run_keeps hrun (begin_disciplined threads) (begin_exclusive threads)
  refine ⟨hex, fun t ht l rest hrest => nested (hdis t ht) hrest, fun hstuck => ?_, ?_⟩
  · by_contra hdone
    obtain ⟨i, vs, hs⟩ := exists_step hdis (exists_rest hdis hdone)
    rw [hstuck i] at hs
    cases hs
  · obtain ⟨more, vs, hmore, hdone⟩ := completes hdis
    have hfirst := run_length hrun
    have hsecond := run_length hmore
    have hzero := remaining_of_done hdone
    exact ⟨more, vs, hmore, hdone, by omega⟩

open LockOrder Locks in
/-- A write that fails while a worker writes to the session, after the registry answered with it. -/
theorem locks_never_deadlock_two :
    ∃ us, Run.run LockOrder.step ([[Call.handleWrite 0 .client true none],
        [Call.work true 0 [(.client, false, some 0)]]].map begin) [0, 1, 1, 1, 1, 0, 0, 0, 1] = some us ∧
      ((∀ i, LockOrder.step us i = none) → Done us) := by
  have hrun : ∃ us, Run.run LockOrder.step ([[Call.handleWrite 0 .client true none],
      [Call.work true 0 [(.client, false, some 0)]]].map begin) [0, 1, 1, 1, 1, 0, 0, 0, 1] = some us := ⟨_, rfl⟩
  obtain ⟨us, hus⟩ := hrun
  exact ⟨us, hus, (locks_never_deadlock _ hus).2.2.1⟩

end BServer
