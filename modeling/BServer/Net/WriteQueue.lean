import BServer.Base.Run
import BServer.Net.MessageFormat

/-!
# `Net.WriteQueue` — the write half of a session

Any thread may call `session_base::write`; completions of `async_write` run on the io threads. Both hold
`mutex_` throughout, so an execution is an interleaving of the two functions with the progress of the
socket. `WriteLink` is that system: the members of the session, the writes the io layer still has to
finish, and the bytes put on the wire so far, with the accepted messages and the number of writes ever
started kept as history.

Nothing in the types says that at most one write is outstanding, that it points at the front of the deque,
or that the lock flag means anything. `Healthy` says so, and survives every step until a write fails
(`Healthy.step`); after that `Wedged` holds for good: the flag stays set, nothing is outstanding, and no
later call starts a write (`Wedged.step`).
-/

namespace BServer

/-- An `async_write` the io layer was handed: the message whose body buffer it points into, and how many
    bytes it covers. -/
structure AsyncWrite where
  source : MessageFormat
  count  : Nat
deriving DecidableEq

/-- `write_msgs_` and `inter_lock_`. -/
structure WriteSide where
  writeMsgs : List MessageFormat
  interLock : Bool
deriving DecidableEq

namespace WriteSide

def fresh : WriteSide := ⟨[], false⟩

def isInterGuardLocked (s : WriteSide) : Bool := s.interLock

/-- `inter_guard_lock`: whether the flag was free, and the session with the flag set. -/
def interGuardLock (s : WriteSide) : Bool × WriteSide :=
  if !s.interLock then (true, { s with interLock := true }) else (false, s)

def interGuardRelease (s : WriteSide) : WriteSide := { s with interLock := false }

/-- `async_write(socket_, buffer(front().body().data(), front().length()), …)`. -/
def startFront (s : WriteSide) : List AsyncWrite :=
  match s.writeMsgs with
  | []     => []
  | m :: _ => [⟨m, m.length⟩]

/-- `write`: the session afterwards, and the write it started, if any. -/
def write (s : WriteSide) (m : MessageFormat) : WriteSide × List AsyncWrite :=
  let s := { s with writeMsgs := s.writeMsgs ++ [m] }
  if !s.isInterGuardLocked then
    match s.interGuardLock with
    | (false, s) => (s, [])
    | (true, s)  => (s, s.startFront)
  else (s, [])

/-- `handle_write`: the session afterwards, the write it started, if any, and whether it called `close`. -/
def handleWrite (error : Bool) (s : WriteSide) : WriteSide × List AsyncWrite × Bool :=
  if !error then
    let s := { s with writeMsgs := s.writeMsgs.tail }
    if !s.writeMsgs.isEmpty then (s, s.startFront, false)
    else (s.interGuardRelease, [], false)
  else (s, [], true)

theorem write_idle (m : MessageFormat) : write ⟨[], false⟩ m = (⟨[m], true⟩, [⟨m, m.length⟩]) := rfl

theorem write_locked (q : List MessageFormat) (m : MessageFormat) :
    write ⟨q, true⟩ m = (⟨q ++ [m], true⟩, []) := rfl

theorem handleWrite_last (m : MessageFormat) :
    handleWrite false ⟨[m], true⟩ = (⟨[], false⟩, [], false) := rfl

theorem handleWrite_more (m m' : MessageFormat) (q : List MessageFormat) :
    handleWrite false ⟨m :: m' :: q, true⟩ = (⟨m' :: q, true⟩, [⟨m', m'.length⟩], false) := rfl

theorem handleWrite_error (s : WriteSide) : handleWrite true s = (s, [], true) := rfl

end WriteSide

/-! ## The session together with the io layer -/

/-- The write half of a session in operation. An outstanding write carries how many of its bytes the socket
    has taken. `accepted`, `failed` and `started` are history and influence nothing. -/
structure WriteLink where
  side        : WriteSide
  outstanding : List (AsyncWrite × Nat)
  wire        : Bytes
  accepted    : List MessageFormat
  failed      : Bool
  started     : Nat

namespace WriteLink

def fresh : WriteLink := ⟨.fresh, [], [], [], false, 0⟩

inductive Event where
  /-- some thread calls `write` with a message it built in `m` by `encode_header` and `body_combine` -/
  | write (m : MessageFormat) (h : Head) (body : Bytes)
  /-- the socket takes `k` more bytes of the `i`-th outstanding write -/
  | transfer (i k : Nat)
  /-- the `i`-th outstanding write has sent everything: `handle_write` without error -/
  | done (i : Nat)
  /-- the `i`-th outstanding write fails: `handle_write` with an error -/
  | error (i : Nat)

/-- Hand the writes a function started to the io layer. -/
def start (l : WriteLink) (side : WriteSide) (ws : List AsyncWrite) : WriteLink :=
  { l with
    side := side
    outstanding := l.outstanding ++ ws.map (fun w => (w, 0))
    started := l.started + ws.length }

def step (l : WriteLink) : Event → Option WriteLink
  | .write m h body =>
      let out := l.side.write (m.framed h body)
      some { l.start out.1 out.2 with accepted := l.accepted ++ [m.framed h body] }
  | .transfer i k =>
      match l.outstanding[i]? with
      | some (w, sent) =>
          if sent + k ≤ w.count then
            some { l with
              outstanding := l.outstanding.set i (w, sent + k)
              wire := l.wire ++ (w.source.body.drop sent).take k }
          else none
      | none => none
  | .done i =>
      match l.outstanding[i]? with
      | some (w, sent) =>
          if sent = w.count then
            let out := l.side.handleWrite false
            some ({ l with outstanding := l.outstanding.eraseIdx i }.start out.1 out.2.1)
          else none
      | none => none
  | .error i =>
      match l.outstanding[i]? with
      | some _ =>
          let out := l.side.handleWrite true
          some { { l with outstanding := l.outstanding.eraseIdx i }.start out.1 out.2.1 with failed := true }
      | none => none

/-! ## Before the first write error -/

/-- The bytes of a list of messages, in order. -/
def bytesOf (ms : List MessageFormat) : Bytes := (ms.map MessageFormat.wire).flatten

theorem bytesOf_append (ms ns : List MessageFormat) : bytesOf (ms ++ ns) = bytesOf ms ++ bytesOf ns := by
  simp [bytesOf]

@[simp] theorem bytesOf_singleton (m : MessageFormat) : bytesOf [m] = m.wire := by simp [bytesOf]

/-- **The three-way invariant.** Either the session is idle and everything accepted is on the wire, or the
    flag is set, exactly the front of the deque is being written, and the wire holds everything before it
    and the part of it already sent. -/
inductive Healthy : WriteLink → Prop where
  | idle (accepted : List MessageFormat) (started : Nat) :
      Healthy ⟨⟨[], false⟩, [], bytesOf accepted, accepted, false, started⟩
  | busy (written : List MessageFormat) (m : MessageFormat) (queued : List MessageFormat)
      (sent started : Nat) :
      sent ≤ m.length → (∀ x ∈ m :: queued, x.body.length = x.length) →
      Healthy ⟨⟨m :: queued, true⟩, [(⟨m, m.length⟩, sent)], bytesOf written ++ m.wire.take sent,
        written ++ m :: queued, false, started⟩

/-- **After a write error.** The flag is still set, so no call of `write` starts anything, and nothing is
    outstanding whose completion could. -/
structure Wedged (l : WriteLink) : Prop where
  locked : l.side.interLock = true
  none_outstanding : l.outstanding = []
  failed : l.failed = true

/-! ### What an event does while exactly one write is outstanding -/

section OneOutstanding

variable {l l' : WriteLink} {w : AsyncWrite} {sent : Nat}

/-- An index into a one-element list. -/
private theorem getElem?_singleton_eq {α : Type} {x y : α} {i : Nat} (h : [x][i]? = some y) :
    i = 0 ∧ y = x := by
  cases i with
  | zero => exact ⟨rfl, (Option.some.inj h).symm⟩
  | succ i => cases h

theorem transfer_cases (ho : l.outstanding = [(w, sent)]) {i k : Nat}
    (hs : step l (.transfer i k) = some l') :
    sent + k ≤ w.count ∧
      l' = { l with outstanding := [(w, sent + k)], wire := l.wire ++ (w.source.body.drop sent).take k } := by
  simp only [step, ho] at hs
  split at hs
  · next w' sent' hi =>
      obtain ⟨rfl, hw⟩ := getElem?_singleton_eq hi
      cases hw
      split at hs
      · next hle =>
          cases hs
          exact ⟨hle, rfl⟩
      · cases hs
  · cases hs

theorem done_cases (ho : l.outstanding = [(w, sent)]) {i : Nat} (hs : step l (.done i) = some l') :
    sent = w.count ∧ l' = { l with outstanding := [] }.start (l.side.handleWrite false).1
      (l.side.handleWrite false).2.1 := by
  simp only [step, ho] at hs
  split at hs
  · next w' sent' hi =>
      obtain ⟨rfl, hw⟩ := getElem?_singleton_eq hi
      cases hw
      split at hs
      · next heq =>
          cases hs
          exact ⟨heq, rfl⟩
      · cases hs
  · cases hs

theorem error_cases (ho : l.outstanding = [(w, sent)]) {i : Nat} (hs : step l (.error i) = some l') :
    l' = { l with outstanding := [], failed := true } := by
  simp only [step, ho, WriteSide.handleWrite_error] at hs
  split at hs
  · next w' hi =>
      obtain ⟨rfl, _⟩ := getElem?_singleton_eq hi
      cases hs
      rfl
  · cases hs

end OneOutstanding

/-! ### Each event keeps the invariant -/

/-- A call of `write` on an idle session starts a write, on a busy one it only queues. -/
theorem Healthy.write {l l' : WriteLink} (h : Healthy l) {m : MessageFormat} {hd : Head} {body : Bytes}
    (hs : WriteLink.step l (.write m hd body) = some l') : Healthy l' := by
  have hsize : (m.framed hd body).body.length = (m.framed hd body).length :=
    MessageFormat.framed_body_length m hd body
  cases h with
  | idle accepted started =>
      simp only [WriteLink.step, WriteSide.write_idle] at hs
      cases hs
      -- everything accepted before is on the wire, and nothing of the new message
      have hb := Healthy.busy accepted (m.framed hd body) [] 0 (started + 1) (Nat.zero_le _) (by
        intro x hx
        rw [List.mem_singleton.mp hx]
        exact hsize)
      rw [List.take_zero, List.append_nil] at hb
      exact hb
  | busy written front queued sent started hsent hsizes =>
      simp only [WriteLink.step, WriteSide.write_locked] at hs
      cases hs
      have hb := Healthy.busy written front (queued ++ [m.framed hd body]) sent started hsent (by
        intro x hx
        rw [← List.cons_append, List.mem_append, List.mem_singleton] at hx
        rcases hx with hx | hx
        · exact hsizes x hx
        · rw [hx]
          exact hsize)
      rw [← List.cons_append, ← List.append_assoc] at hb
      exact hb

/-- The socket takes more bytes of the front message, in place. -/
theorem Healthy.transfer {l l' : WriteLink} (h : Healthy l) {i k : Nat}
    (hs : WriteLink.step l (.transfer i k) = some l') : Healthy l' := by
  cases h with
  | idle accepted started => cases hs
  | busy written m queued sent started hsent hsizes =>
      obtain ⟨hle, rfl⟩ := transfer_cases rfl hs
      -- the body buffer holds the frame and nothing else, so `drop sent` continues `take sent`
      have hbody : m.wire = m.body := by
        rw [MessageFormat.wire, ← hsizes m List.mem_cons_self, List.take_length]
      have hb := Healthy.busy written m queued (sent + k) started hle hsizes
      rw [List.take_add, ← List.append_assoc, hbody] at hb
      show Healthy ⟨_, _, (bytesOf written ++ m.wire.take sent) ++ (m.body.drop sent).take k, _, _, _⟩
      rw [hbody]
      exact hb

/-- The front message is on the wire, and the next one becomes the front. -/
theorem Healthy.done {l l' : WriteLink} (h : Healthy l) {i : Nat}
    (hs : WriteLink.step l (.done i) = some l') : Healthy l' := by
  cases h with
  | idle accepted started => cases hs
  | busy written m queued sent started hsent hsizes =>
      obtain ⟨heq, rfl⟩ := done_cases rfl hs
      -- the completion covers the whole message
      have hall : m.wire.take sent = m.wire := by
        rw [heq]
        exact List.take_of_length_le (List.length_take_le _ _)
      cases queued with
      | nil =>
          have hb := Healthy.idle (written ++ [m]) started
          rw [bytesOf_append, bytesOf_singleton] at hb
          rw [WriteSide.handleWrite_last, hall]
          exact hb
      | cons m' queued =>
          have hb := Healthy.busy (written ++ [m]) m' queued 0 (started + 1) (Nat.zero_le _)
            (fun x hx => hsizes x (List.mem_cons_of_mem _ hx))
          rw [bytesOf_append, bytesOf_singleton, List.take_zero, List.append_nil,
            List.append_assoc] at hb
          rw [WriteSide.handleWrite_more, hall]
          exact hb

theorem Healthy.error {l l' : WriteLink} (h : Healthy l) {i : Nat}
    (hs : WriteLink.step l (.error i) = some l') : Wedged l' := by
  cases h with
  | idle accepted started => cases hs
  | busy written m queued sent started hsent hsizes =>
      rw [error_cases rfl hs]
      exact ⟨rfl, rfl, rfl⟩

theorem Healthy.step {l l' : WriteLink} (h : Healthy l) {e : Event} (hs : WriteLink.step l e = some l') :
    Healthy l' ∨ Wedged l' := by
  cases e with
  | write m hd body => exact Or.inl (h.write hs)
  | transfer i k => exact Or.inl (h.transfer hs)
  | done i => exact Or.inl (h.done hs)
  | error i => exact Or.inr (h.error hs)

theorem Wedged.step {l l' : WriteLink} (h : Wedged l) {e : Event} (hs : step l e = some l') :
    Wedged l' ∧ l'.started = l.started := by
  obtain ⟨⟨q, locked⟩, outstanding, wire, accepted, failed, started⟩ := l
  obtain ⟨hl, ho, hf⟩ := h
  simp only at hl ho hf
  subst hl ho hf
  cases e with
  | write m hd body =>
      cases hs
      exact ⟨⟨rfl, rfl, rfl⟩, rfl⟩
  | transfer i k => cases hs
  | done i => cases hs
  | error i => cases hs

/-! ## Every interleaving -/

/-- The messages an event hands to the session. -/
def Event.accepts : Event → List MessageFormat
  | .write m h body => [m.framed h body]
  | _ => []

/-- The history field records exactly the `write` calls, whatever else happens. -/
theorem accepted_step {l l' : WriteLink} {e : Event} (hs : step l e = some l') :
    l'.accepted = l.accepted ++ e.accepts := by
  cases e with
  | write m h body =>
      cases hs
      rfl
  | transfer i k =>
      simp only [WriteLink.step] at hs
      split at hs
      · split at hs
        · cases hs; exact (List.append_nil _).symm
        · cases hs
      · cases hs
  | done i =>
      simp only [WriteLink.step] at hs
      split at hs
      · split at hs
        · cases hs; exact (List.append_nil _).symm
        · cases hs
      · cases hs
  | error i =>
      simp only [WriteLink.step] at hs
      split at hs
      · cases hs; exact (List.append_nil _).symm
      · cases hs

theorem accepted_run {es : List Event} {l : WriteLink} (h : Run.run step fresh es = some l) :
    l.accepted = es.flatMap Event.accepts := by
  refine Run.run_induction step (P := fun es l => l.accepted = es.flatMap Event.accepts) rfl ?_ h
  intro es t e u _ ih he
  rw [accepted_step he, ih, List.flatMap_append, List.flatMap_singleton]

theorem healthy_or_wedged {es : List Event} {l : WriteLink} (h : Run.run step fresh es = some l) :
    Healthy l ∨ Wedged l := by
  refine Run.run_invariant step (I := fun l => Healthy l ∨ Wedged l) (Or.inl (.idle [] 0)) ?_ h
  intro t e u ht hu
  rcases ht with ht | ht
  · exact ht.step hu
  · exact Or.inr (ht.step hu).1

theorem Wedged.run {l l' : WriteLink} (h : Wedged l) {es : List Event}
    (hrun : Run.run WriteLink.step l es = some l') : Wedged l' ∧ l'.started = l.started := by
  refine Run.run_invariant WriteLink.step (I := fun x => Wedged x ∧ x.started = l.started) ⟨h, rfl⟩ ?_ hrun
  rintro t e u ⟨ht, hst⟩ hu
  obtain ⟨hw, he⟩ := ht.step hu
  exact ⟨hw, he.trans hst⟩

/-- The part of the outstanding write that is already on the wire. -/
def sentPart (l : WriteLink) : Bytes := l.outstanding.flatMap (fun o => o.1.source.wire.take o.2)

/-- **The write queue before an error.** The flag, the deque and the io layer agree; the one outstanding
    write covers exactly the front message; the wire holds the messages before it and its sent part. -/
structure InOrder (l : WriteLink) (calls : List MessageFormat) : Prop where
  locked_iff      : l.side.interLock = true ↔ l.side.writeMsgs ≠ []
  outstanding_iff : l.side.writeMsgs ≠ [] ↔ l.outstanding.length = 1
  at_most_one     : l.outstanding.length ≤ 1
  covers_front    : ∀ w sent, (w, sent) ∈ l.outstanding →
    l.side.writeMsgs.head? = some w.source ∧ w.count = w.source.length ∧
    w.count ≤ w.source.body.length ∧ sent ≤ w.count
  wire_eq         : ∃ written, calls = written ++ l.side.writeMsgs ∧
    l.wire = bytesOf written ++ l.sentPart

theorem Healthy.inOrder {l : WriteLink} (h : Healthy l) : InOrder l l.accepted := by
  cases h with
  | idle accepted started =>
      refine ⟨by simp, by simp, by simp, ?_, accepted, by simp, by simp [sentPart]⟩
      intro w sent hw
      cases hw
  | busy written m queued sent started hsent hsize =>
      refine ⟨by simp, by simp, by simp, ?_, written, rfl, by simp [sentPart]⟩
      intro w sent' hw
      cases List.mem_singleton.mp hw
      exact ⟨rfl, rfl, Nat.le_of_eq (hsize m List.mem_cons_self).symm, hsent⟩

theorem Healthy.not_failed {l : WriteLink} (h : Healthy l) : l.failed = false := by
  cases h with
  | idle => rfl
  | busy => rfl

/-- **Write queue safety and order.** After any interleaving of `write` calls, socket progress and
    completions: if no write has failed, the session is `InOrder` with respect to the `write` calls made;
    if one has, no continuation starts another write. -/
theorem write_queue_safe_and_ordered (es : List Event) (l : WriteLink)
    (hrun : Run.run step fresh es = some l) :
    (l.failed = false → InOrder l (es.flatMap Event.accepts)) ∧
    (l.failed = true → ∀ fs l', Run.run step l fs = some l' → l'.started = l.started) := by
  rcases healthy_or_wedged hrun with h | h
  · constructor
    · intro _
      rw [← accepted_run hrun]
      exact h.inOrder
    · intro hf
      rw [h.not_failed] at hf
      cases hf
  · constructor
    · intro hf
      rw [h.failed] at hf
      cases hf
    · intro _ fs l' hfs
      exact (h.run hfs).2

/-- Two accepted messages, five bytes into the first. -/
theorem write_queue_two_messages :
    let m := MessageFormat.new.framed ⟨1, 0, 200⟩ []
    let m' := MessageFormat.new.framed ⟨1, 0, 201⟩ [7]
    InOrder ⟨⟨[m, m'], true⟩, [(⟨m, m.length⟩, 5)], m.wire.take 5, [m, m'], false, 1⟩ [m, m'] :=
  (write_queue_safe_and_ordered
    [.write .new ⟨1, 0, 200⟩ [], .write .new ⟨1, 0, 201⟩ [7], .transfer 0 5] _ rfl).1 rfl

end WriteLink

end BServer
