import BServer.Base.Segments
import BServer.Net.MessageFormat

/-!
# `Net.ReadLoop` — the read half of a session

A session always has at most one `async_read` outstanding: 12 bytes into the header buffer of `read_msg_`, or
a body's worth into its body buffer. `handle_read_header` and `handle_read_body` consume a completion and
start the next read; what they do besides (`ReadAct`: hand the message to the task queue, close the session)
is returned in order, to be carried out by whoever owns the registries and the queue.

The read loop over a stream of TCP segments (`readLoop`) lets every outstanding read gather exactly the
bytes it asked for, and stops when the stream cannot complete the read or nothing is outstanding. An
outstanding read asks for at least one byte (`AsyncRead.count_pos`), so the loop is total.
-/

namespace BServer

open Bytes

/-- Which vector of `read_msg_` an `async_read` was given. -/
inductive ReadBuffer where
  | head
  | body
deriving DecidableEq, Repr

/-- An outstanding `async_read` of exactly `count` bytes at the front of a buffer. -/
structure AsyncRead where
  buffer    : ReadBuffer
  count     : Nat
  count_pos : 0 < count
deriving DecidableEq

/-- `async_read(socket_, buffer(read_msg_.head().data(), message_head_length), …)`. -/
def AsyncRead.header : AsyncRead := ⟨.head, messageHeadLength, by decide⟩

/-- The members of `session_base` its read handlers work on. -/
structure ReadSide where
  readMsg : MessageFormat
  pending : Option AsyncRead
deriving DecidableEq

/-- What a read handler does besides starting the next read. -/
inductive ReadAct where
  /-- `__SESSION_TASK::push(read_msg_)` -/
  | push (m : MessageFormat)
  /-- `close()` -/
  | close
deriving DecidableEq

namespace MessageFormat

/-- The header buffer after the socket stored `d` into it. -/
def fillHead (m : MessageFormat) (d : Bytes) : MessageFormat :=
  { m with head := overwrite m.head d, head_size := by rw [overwrite_length, m.head_size] }

/-- The body buffer after the socket stored `d` at its front. -/
def fillBody (m : MessageFormat) (d : Bytes) : MessageFormat := { m with body := overwrite m.body d }

end MessageFormat

/-- `logic_deal_processing::after_body_get`: keepalives are dropped, everything else is queued. Server and
    client sessions share it. -/
def afterBodyGet (m : MessageFormat) : List ReadAct :=
  if m.meetHead.cmd = 1 then [] else [.push m]

namespace ReadSide

open MessageFormat (bodyLengthOf)

/-- `do_head` (the hook `after_header_get` is empty). -/
def doHead (r : ReadSide) : Int × ReadSide :=
  ((r.readMsg.decodeHeader).1, { r with readMsg := (r.readMsg.decodeHeader).2.2 })

/-- `do_body`: always `0`. -/
def doBody (r : ReadSide) : Int × List ReadAct := (0, afterBodyGet r.readMsg)

/-- Start the read of the next header. -/
def armHeader (r : ReadSide) : ReadSide := { r with pending := some .header }

/-- `handle_read_body`. The flush between two messages is commented out in the source. -/
def handleReadBody (error : Bool) (r : ReadSide) : ReadSide × List ReadAct :=
  if error then (r, [.close])
  else if r.doBody.1 = 0 then (r.armHeader, r.doBody.2)
  else (r, r.doBody.2)

/-- `handle_read_header`. -/
def handleReadHeader (error : Bool) (r : ReadSide) : ReadSide × List ReadAct :=
  if error then (r, [.close])
  else
    let (logicStatus, r) := r.doHead
    if logicStatus = 0 then
      if h : r.readMsg.bodyLength = 0 then r.handleReadBody error
      else ({ r with pending := some ⟨.body, r.readMsg.bodyLength, Nat.pos_of_ne_zero h⟩ }, [])
    else if logicStatus = -1 then (r, [.close])
    else (r, [])

/-- The handler bound to an outstanding read. -/
def handler : ReadBuffer → Bool → ReadSide → ReadSide × List ReadAct
  | .head => handleReadHeader
  | .body => handleReadBody

/-- The vector an outstanding read points into. -/
def bufferOf (r : ReadSide) : ReadBuffer → Bytes
  | .head => r.readMsg.head
  | .body => r.readMsg.body

/-- The socket stored `d` at the front of the buffer; the read is no longer outstanding. -/
def fill (r : ReadSide) : ReadBuffer → Bytes → ReadSide
  | .head, d => ⟨r.readMsg.fillHead d, none⟩
  | .body, d => ⟨r.readMsg.fillBody d, none⟩

/-- The outstanding read `p` completes with the bytes `d`. -/
def complete (r : ReadSide) (p : AsyncRead) (d : Bytes) : ReadSide × List ReadAct :=
  handler p.buffer false (r.fill p.buffer d)

/-- The outstanding read `p` completes with an error. -/
def fail (r : ReadSide) (p : AsyncRead) : ReadSide × List ReadAct :=
  handler p.buffer true { r with pending := none }

/-! ## What the handlers do, by the header that was read

A handler runs on a session with nothing outstanding. -/

section Handlers

variable {m : MessageFormat}

theorem handleReadHeader_reject (h : maxBodyLength < bodyLengthOf m.readHead.len) :
    handleReadHeader false ⟨m, none⟩ = (⟨m.storeHead m.readHead, none⟩, [.close]) := by
  simp only [handleReadHeader, doHead, MessageFormat.decodeHeader_reject h]
  rfl

theorem handleReadHeader_empty (h : bodyLengthOf m.readHead.len = 0) :
    handleReadHeader false ⟨m, none⟩
      = (⟨m.accepted m.readHead, some .header⟩, afterBodyGet (m.accepted m.readHead)) := by
  have hacc : bodyLengthOf m.readHead.len ≤ maxBodyLength := by
    rw [h]; exact Nat.zero_le _
  have hlen : (m.accepted m.readHead).bodyLength = 0 := h
  simp only [handleReadHeader, doHead, MessageFormat.decodeHeader_accept hacc]
  simp [hlen, handleReadBody, doBody, armHeader]

theorem handleReadHeader_body (hacc : bodyLengthOf m.readHead.len ≤ maxBodyLength)
    (hpos : 0 < bodyLengthOf m.readHead.len) :
    handleReadHeader false ⟨m, none⟩
      = (⟨m.accepted m.readHead, some ⟨.body, bodyLengthOf m.readHead.len, hpos⟩⟩, []) := by
  have hlen : (m.accepted m.readHead).bodyLength ≠ 0 := Nat.pos_iff_ne_zero.mp hpos
  simp only [handleReadHeader, doHead, MessageFormat.decodeHeader_accept hacc]
  simp only [Bool.false_eq_true, if_false, if_true, dif_neg hlen]
  rfl

theorem handleReadBody_ok (m : MessageFormat) :
    handleReadBody false ⟨m, none⟩ = (⟨m, some .header⟩, afterBodyGet m) := by
  simp [handleReadBody, doBody, armHeader]

theorem handler_error (b : ReadBuffer) (r : ReadSide) : handler b true r = (r, [.close]) := by
  cases b <;> rfl

end Handlers

theorem fail_eq (r : ReadSide) (p : AsyncRead) : r.fail p = ({ r with pending := none }, [.close]) :=
  handler_error _ _

/-- What a handler leaves: the stamp of the session on `read_msg_`, and at most one thing to do besides. -/
structure Leaves (m : MessageFormat) (out : ReadSide × List ReadAct) : Prop where
  stamp : out.1.readMsg.remoteId = m.remoteId
  acts  : out.2 = [] ∨ out.2 = [.push out.1.readMsg] ∨ out.2 = [.close]

/-- What is handed to the queue for a message: nothing, or the message. -/
theorem afterBodyGet_eq (m : MessageFormat) :
    (m.meetHead.cmd = 1 ∧ afterBodyGet m = []) ∨ (m.meetHead.cmd ≠ 1 ∧ afterBodyGet m = [.push m]) := by
  by_cases h : m.meetHead.cmd = 1
  · exact Or.inl ⟨h, if_pos h⟩
  · exact Or.inr ⟨h, if_neg h⟩

theorem handleReadHeader_spec (m : MessageFormat) : Leaves m (handleReadHeader false ⟨m, none⟩) := by
  by_cases hacc : bodyLengthOf m.readHead.len ≤ maxBodyLength
  · by_cases hz : bodyLengthOf m.readHead.len = 0
    · rw [handleReadHeader_empty hz]
      rcases afterBodyGet_eq (m.accepted m.readHead) with ⟨_, h⟩ | ⟨_, h⟩
      · exact ⟨rfl, Or.inl h⟩
      · exact ⟨rfl, Or.inr (Or.inl h)⟩
    · rw [handleReadHeader_body hacc (Nat.pos_of_ne_zero hz)]
      exact ⟨rfl, Or.inl rfl⟩
  · rw [handleReadHeader_reject (Nat.lt_of_not_le hacc)]
    exact ⟨rfl, Or.inr (Or.inr rfl)⟩

theorem handleReadBody_spec (m : MessageFormat) : Leaves m (handleReadBody false ⟨m, none⟩) := by
  rw [handleReadBody_ok]
  rcases afterBodyGet_eq m with ⟨_, h⟩ | ⟨_, h⟩
  · exact ⟨rfl, Or.inl h⟩
  · exact ⟨rfl, Or.inr (Or.inl h)⟩

theorem complete_spec (r : ReadSide) (p : AsyncRead) (d : Bytes) : Leaves r.readMsg (r.complete p d) := by
  unfold complete
  cases p.buffer with
  | head =>
      obtain ⟨hs, ha⟩ := handleReadHeader_spec (r.readMsg.fillHead d)
      exact ⟨hs, ha⟩
  | body =>
      obtain ⟨hs, ha⟩ := handleReadBody_spec (r.readMsg.fillBody d)
      exact ⟨hs, ha⟩

/-! ## Buffer ranges -/

/-- The outstanding read stays inside the vector it points into. -/
def InRange (r : ReadSide) : Prop := ∀ p, r.pending = some p → p.count ≤ (r.bufferOf p.buffer).length

theorem inRange_idle (m : MessageFormat) : InRange ⟨m, none⟩ := fun _ hp => by cases hp

theorem inRange_header (m : MessageFormat) : InRange ⟨m, some .header⟩ := by
  intro p hp
  cases hp
  exact Nat.le_of_eq m.head_size.symm

/-- **Every read `handle_read_header` starts is in range.** The body was just resized to 12 bytes more than
    the read asks for; the header buffer has exactly the 12 bytes asked for. -/
theorem handleReadHeader_inRange (m : MessageFormat) : (handleReadHeader false ⟨m, none⟩).1.InRange := by
  by_cases hacc : bodyLengthOf m.readHead.len ≤ maxBodyLength
  · by_cases hz : bodyLengthOf m.readHead.len = 0
    · rw [handleReadHeader_empty hz]
      exact inRange_header _
    · rw [handleReadHeader_body hacc (Nat.pos_of_ne_zero hz)]
      intro p hp
      cases hp
      show _ ≤ (resize _ _).length
      rw [resize_length]
      exact Nat.le_add_left _ _
  · rw [handleReadHeader_reject (Nat.lt_of_not_le hacc)]
    exact inRange_idle _

theorem complete_inRange (r : ReadSide) (p : AsyncRead) (d : Bytes) : (r.complete p d).1.InRange := by
  unfold complete
  cases p.buffer with
  | head => exact handleReadHeader_inRange _
  | body =>
      rw [show handler .body false (r.fill .body d) = _ from handleReadBody_ok _]
      exact inRange_header _

end ReadSide

/-! ## The loop over a stream -/

open Segments in
/-- Run the session on the segments that have arrived: each outstanding read gathers the bytes it asked for
    and its handler runs, until a read cannot be completed or none is outstanding. Returns the session, the
    bytes not consumed, and what the handlers did. -/
def readLoop (r : ReadSide) (segs : List Bytes) : ReadSide × List Bytes × List ReadAct :=
  match r.pending with
  | none => (r, segs, [])
  | some p =>
      match _h : gather p.count segs with
      | none => (r, segs, [])
      | some (d, rest) =>
          let out := r.complete p d
          let next := readLoop out.1 rest
          (next.1, next.2.1, out.2 ++ next.2.2)
termination_by segs.flatten.length
decreasing_by
  obtain ⟨_, hrest, hlen⟩ := gather_spec _h
  have hcount := p.count_pos
  have : p.count ≤ segs.flatten.length := by
    apply Nat.le_of_not_lt
    intro hlt
    rw [(gather_eq_none_iff segs p.count).mpr hlt] at _h
    cases _h
  rw [hrest, List.length_drop]
  omega

/-- The peer closed the connection after the segments: a read still outstanding completes with an error. -/
def readToEnd (r : ReadSide) (segs : List Bytes) : ReadSide × List ReadAct :=
  let out := readLoop r segs
  match out.1.pending with
  | none   => (out.1, out.2.2)
  | some p => ((out.1.fail p).1, out.2.2 ++ (out.1.fail p).2)

theorem readLoop_idle {r : ReadSide} {segs : List Bytes} (h : r.pending = none) :
    readLoop r segs = (r, segs, []) := by
  rw [readLoop, h]

theorem readLoop_starved {r : ReadSide} {segs : List Bytes} {p : AsyncRead} (hp : r.pending = some p)
    (h : segs.flatten.length < p.count) : readLoop r segs = (r, segs, []) := by
  have hg := (Segments.gather_eq_none_iff segs p.count).mpr h
  rw [readLoop]
  simp only [hp]
  split
  · rfl
  · next heq => rw [hg] at heq; cases heq

/-- The loop after a handler has run: its acts come first. -/
def resume (out : ReadSide × List ReadAct) (rest : List Bytes) : ReadSide × List Bytes × List ReadAct :=
  ((readLoop out.1 rest).1, (readLoop out.1 rest).2.1, out.2 ++ (readLoop out.1 rest).2.2)

/-- One turn of the loop, when the stream can complete the outstanding read. -/
theorem readLoop_step {r : ReadSide} {segs : List Bytes} {p : AsyncRead} (hp : r.pending = some p)
    (h : p.count ≤ segs.flatten.length) :
    ∃ rest, rest.flatten = segs.flatten.drop p.count ∧
      readLoop r segs = resume (r.complete p (segs.flatten.take p.count)) rest := by
  obtain ⟨rest, hg, hrest⟩ := Segments.gather_of_le h
  refine ⟨rest, hrest, ?_⟩
  rw [readLoop]
  simp only [hp]
  split
  · next heq => rw [hg] at heq; cases heq
  · next d rest' heq =>
      rw [hg] at heq
      cases heq
      rfl

@[simp] theorem resume_idle (m : MessageFormat) (acts : List ReadAct) (rest : List Bytes) :
    resume (⟨m, none⟩, acts) rest = (⟨m, none⟩, rest, acts) := by
  have hi : readLoop ⟨m, none⟩ rest = (⟨m, none⟩, rest, []) := readLoop_idle rfl
  rw [resume, hi, List.append_nil]

theorem resume_starved (m : MessageFormat) (p : AsyncRead) (acts : List ReadAct) {rest : List Bytes}
    (h : rest.flatten.length < p.count) :
    resume (⟨m, some p⟩, acts) rest = (⟨m, some p⟩, rest, acts) := by
  have hs : readLoop ⟨m, some p⟩ rest = (⟨m, some p⟩, rest, []) := readLoop_starved rfl h
  rw [resume, hs, List.append_nil]

/-- The session states a stream can drive the session through. -/
inductive Visits : ReadSide → List Bytes → ReadSide → List Bytes → Prop where
  | refl (r : ReadSide) (segs : List Bytes) : Visits r segs r segs
  | step {r r' : ReadSide} {segs rest segs' : List Bytes} {p : AsyncRead} {d : Bytes} :
      r.pending = some p → Segments.gather p.count segs = some (d, rest) →
      Visits (r.complete p d).1 rest r' segs' → Visits r segs r' segs'

theorem Visits.inRange {r r' : ReadSide} {segs segs' : List Bytes} (h : Visits r segs r' segs')
    (hr : r.InRange) : r'.InRange := by
  induction h with
  | refl => exact hr
  | step _ _ _ ih => exact ih (ReadSide.complete_inRange _ _ _)

end BServer
