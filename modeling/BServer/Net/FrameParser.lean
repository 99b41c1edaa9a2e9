import BServer.Net.ReadLoop

/-!
# `Net.FrameParser` — the read loop refines a reference frame parser

`parseFrames` is what the wire format means, on the whole byte stream at once: take 12 bytes, read the
signed big-endian length, stop if it is out of `[12, 12 + 1048576]`, take the body, repeat. It owns no
buffers and sees no segments.

`readLoop_refines` is the simulation: started at a frame boundary, with *any* stale content in `read_msg_`,
the session hands over exactly the frames of the reference parser and stops for the same reason. The proof
follows the recursion of `parseFrames`; each frame costs the session one or two completed reads
(`readLoop_frame`), after which it is at a boundary again with a different stale content, which is why the
invariant is only `AtBoundary` and never mentions the body buffer.

The two consequences are the two ends of the stream: input that just stops (`readToEnd_of_readLoop`), and a
stream that is a concatenation of frames (`readLoop_frames`).
-/

namespace BServer

open Bytes
open MessageFormat (bodyLengthOf headBytes)

/-! ## The reference parser -/

/-- A frame: its head as transmitted, and its body. -/
abbrev Frame := Head × Bytes

/-- Why the reference parser stopped. -/
inductive Stop where
  /-- fewer than 12 bytes are left -/
  | inHeader (left : Bytes)
  /-- the header is complete and its body is not -/
  | inBody (left : Bytes)
  /-- a length field out of range -/
  | badLength
deriving DecidableEq

/-- **The reference frame parser.** -/
def parseFrames (bs : Bytes) : List Frame × Stop :=
  if bs.length < 12 then ([], .inHeader bs)
  else
    let h := headOf bs
    if h.len.toInt < 12 ∨ 12 + 1048576 < h.len.toInt then ([], .badLength)
    else
      let n := (h.len.toInt - 12).toNat
      if (bs.drop 12).length < n then ([], .inBody (bs.drop 12))
      else
        let next := parseFrames (bs.drop (12 + n))
        ((h, (bs.drop 12).take n) :: next.1, next.2)
termination_by bs.length
decreasing_by
  rw [List.length_drop]
  omega

/-- The frames a session passes on: keepalive answers (`cmd = 1`) are dropped. -/
def deliverable (fs : List Frame) : List Frame := fs.filter (fun f => f.1.cmd ≠ 1)

/-- A message in the task queue carries a frame: same head, the body where `try_pop` will read it, inside
    the body buffer, and the id of the session it came from. -/
structure Delivered (id : Bytes) (f : Frame) (m : MessageFormat) : Prop where
  head    : m.meetHead = f.1
  length  : m.bodyLength = f.2.length
  inside  : m.bodyLength ≤ m.body.length
  payload : m.payload = f.2
  origin  : m.remoteId = id

theorem deliverable_cons_keepalive {f : Frame} (h : f.1.cmd = 1) (fs : List Frame) :
    deliverable (f :: fs) = deliverable fs := List.filter_cons_of_neg (by simpa using h)

theorem deliverable_cons_of_ne {f : Frame} (h : f.1.cmd ≠ 1) (fs : List Frame) :
    deliverable (f :: fs) = f :: deliverable fs := List.filter_cons_of_pos (by simpa using h)

/-! ## One frame through the handlers -/

/-- The session waits for a header. Nothing is said about what its buffers hold. -/
def AtBoundary (id : Bytes) (r : ReadSide) : Prop := r.pending = some .header ∧ r.readMsg.remoteId = id

/-- The first 12 bytes of the stream become the header. -/
theorem readHead_fill {m : MessageFormat} {d : Bytes} (h : d.length = 12) :
    (m.fillHead d).readHead = headOf d := by
  have hd : (m.fillHead d).head = d := overwrite_eq (by rw [h, m.head_size]; rfl)
  rw [MessageFormat.readHead, hd]

theorem headOf_take (bs : Bytes) : headOf (bs.take 12) = headOf bs := by
  unfold headOf
  rw [List.drop_take, List.drop_take, ofBe32_take bs 8, ofBe32_take (bs.drop 4) 4,
    ofBe32_take (bs.drop 8) 0]

/-- The reader's 32-bit test and the reference parser's signed one agree. -/
theorem bad_length_iff (len : CInt) :
    (len.toInt < 12 ∨ 12 + 1048576 < len.toInt) ↔ maxBodyLength < bodyLengthOf len := by
  rw [← Nat.not_le, MessageFormat.bodyLengthOf_le_iff, maxBodyLength]
  omega

/-- The body length both sides use for an accepted header. -/
theorem bodyLengthOf_toNat {len : CInt} (h : bodyLengthOf len ≤ maxBodyLength) :
    (len.toInt - 12).toNat = bodyLengthOf len := by
  have := MessageFormat.bodyLengthOf_eq h
  omega

/-! ### The four ways through one turn of the parser -/

theorem parseFrames_starved {bs : Bytes} (h12 : bs.length < 12) : parseFrames bs = ([], .inHeader bs) := by
  rw [parseFrames, if_pos h12]

theorem parseFrames_badLength {bs : Bytes} (h12 : ¬ bs.length < 12)
    (hbad : maxBodyLength < bodyLengthOf (headOf bs).len) : parseFrames bs = ([], .badLength) := by
  rw [parseFrames, if_neg h12]
  exact if_pos ((bad_length_iff _).mpr hbad)

theorem parseFrames_inBody {bs : Bytes} (h12 : ¬ bs.length < 12)
    (hok : bodyLengthOf (headOf bs).len ≤ maxBodyLength)
    (hshort : (bs.drop 12).length < bodyLengthOf (headOf bs).len) :
    parseFrames bs = ([], .inBody (bs.drop 12)) := by
  have hin : ¬ ((headOf bs).len.toInt < 12 ∨ 12 + 1048576 < (headOf bs).len.toInt) :=
    fun h => Nat.not_lt_of_le hok ((bad_length_iff _).mp h)
  rw [parseFrames, if_neg h12]
  simp only [if_neg hin, bodyLengthOf_toNat hok, if_pos hshort]

theorem parseFrames_frame {bs : Bytes} (h12 : ¬ bs.length < 12)
    (hok : bodyLengthOf (headOf bs).len ≤ maxBodyLength)
    (hbody : ¬ (bs.drop 12).length < bodyLengthOf (headOf bs).len) :
    parseFrames bs =
      ((headOf bs, (bs.drop 12).take (bodyLengthOf (headOf bs).len)) ::
          (parseFrames (bs.drop (12 + bodyLengthOf (headOf bs).len))).1,
        (parseFrames (bs.drop (12 + bodyLengthOf (headOf bs).len))).2) := by
  have hin : ¬ ((headOf bs).len.toInt < 12 ∨ 12 + 1048576 < (headOf bs).len.toInt) :=
    fun h => Nat.not_lt_of_le hok ((bad_length_iff _).mp h)
  rw [parseFrames, if_neg h12]
  simp only [if_neg hin, bodyLengthOf_toNat hok, if_neg hbody]

section Boundary

variable {id : Bytes} {r : ReadSide} {segs : List Bytes}

/-- At a boundary, 12 bytes make the session run `handle_read_header` on the head of the stream. -/
theorem readLoop_header (hr : AtBoundary id r) (h12 : ¬ segs.flatten.length < 12) :
    ∃ m rest, m.readHead = headOf segs.flatten ∧ m.remoteId = id ∧ rest.flatten = segs.flatten.drop 12 ∧
      readLoop r segs = resume (ReadSide.handleReadHeader false ⟨m, none⟩) rest := by
  obtain ⟨rest, hrest, hloop⟩ := readLoop_step hr.1 (Nat.le_of_not_lt h12)
  refine ⟨r.readMsg.fillHead (segs.flatten.take 12), rest, ?_, hr.2, hrest, hloop⟩
  rw [← headOf_take]
  exact readHead_fill (List.length_take_of_le (Nat.le_of_not_lt h12))

/-- Waiting for a body that has arrived, the session fills the front of its buffer with it, hands the
    message on and waits for a header. -/
theorem readLoop_body (m : MessageFormat) {n : Nat} (hpos : 0 < n) (h : ¬ segs.flatten.length < n) :
    ∃ rest, rest.flatten = segs.flatten.drop n ∧
      readLoop ⟨m, some ⟨.body, n, hpos⟩⟩ segs
        = resume (⟨m.fillBody (segs.flatten.take n), some .header⟩,
            afterBodyGet (m.fillBody (segs.flatten.take n))) rest := by
  obtain ⟨rest, hrest, hloop⟩ :=
    readLoop_step (r := ⟨m, some ⟨.body, n, hpos⟩⟩) rfl (Nat.le_of_not_lt h)
  refine ⟨rest, hrest, ?_⟩
  rw [hloop]
  exact congrArg (fun out => resume out rest) (ReadSide.handleReadBody_ok _)

/-- A header with its length out of range closes the session; nothing is outstanding afterwards. -/
theorem readLoop_badLength (hr : AtBoundary id r) (h12 : ¬ segs.flatten.length < 12)
    (hbad : maxBodyLength < bodyLengthOf (headOf segs.flatten).len) :
    ∃ r' rest, readLoop r segs = (r', rest, [.close]) ∧ r'.pending = none := by
  obtain ⟨m, rest, hhead, _, _, hloop⟩ := readLoop_header hr h12
  rw [← hhead] at hbad
  rw [ReadSide.handleReadHeader_reject hbad, resume_idle] at hloop
  exact ⟨_, _, hloop, rfl⟩

/-- An accepted header whose body has not arrived leaves the read of the body outstanding. -/
theorem readLoop_inBody (hr : AtBoundary id r) (h12 : ¬ segs.flatten.length < 12)
    (hok : bodyLengthOf (headOf segs.flatten).len ≤ maxBodyLength)
    (hshort : (segs.flatten.drop 12).length < bodyLengthOf (headOf segs.flatten).len) :
    ∃ r' rest, readLoop r segs = (r', rest, []) ∧ r'.pending ≠ none ∧
      rest.flatten = segs.flatten.drop 12 := by
  obtain ⟨m, rest, hhead, _, hrest, hloop⟩ := readLoop_header hr h12
  rw [← hhead] at hok hshort
  rw [← hrest] at hshort
  have hpos : 0 < bodyLengthOf m.readHead.len := Nat.lt_of_le_of_lt (Nat.zero_le _) hshort
  rw [ReadSide.handleReadHeader_body hok hpos, resume_starved _ _ _ hshort] at hloop
  exact ⟨_, _, hloop, by simp, hrest⟩

/-- A message whose body buffer was sized by its header and then filled at the front. -/
theorem delivered_fillBody {m : MessageFormat} {d : Bytes} (hid : m.remoteId = id)
    (hlen : d.length = bodyLengthOf m.readHead.len) :
    Delivered id (m.readHead, d) ((m.accepted m.readHead).fillBody d) := by
  have hsize : d.length ≤ (m.accepted m.readHead).body.length := by
    show d.length ≤ (resize _ _).length
    rw [resize_length, hlen]
    exact Nat.le_add_left _ _
  refine ⟨rfl, hlen.symm, ?_, ?_, hid⟩
  · show bodyLengthOf m.readHead.len ≤ (overwrite _ _).length
    rw [overwrite_length, ← hlen]
    exact hsize
  · show (overwrite _ _).take (bodyLengthOf m.readHead.len) = d
    rw [← hlen]
    exact take_overwrite hsize

/-- **A whole frame.** The session is at a boundary again, on the rest of the stream, and has handed the
    frame to `after_body_get`. -/
theorem readLoop_frame (hr : AtBoundary id r) (h12 : ¬ segs.flatten.length < 12)
    (hok : bodyLengthOf (headOf segs.flatten).len ≤ maxBodyLength)
    (hbody : ¬ (segs.flatten.drop 12).length < bodyLengthOf (headOf segs.flatten).len) :
    ∃ r' rest m, AtBoundary id r' ∧
      rest.flatten = segs.flatten.drop (12 + bodyLengthOf (headOf segs.flatten).len) ∧
      Delivered id (headOf segs.flatten,
        (segs.flatten.drop 12).take (bodyLengthOf (headOf segs.flatten).len)) m ∧
      readLoop r segs = resume (r', afterBodyGet m) rest := by
  obtain ⟨m, rest, hhead, hid, hrest, hloop⟩ := readLoop_header hr h12
  rw [← List.drop_drop, ← hrest, ← hhead]
  rw [← hhead] at hok
  rw [← hrest, ← hhead] at hbody
  have hlen : (rest.flatten.take (bodyLengthOf m.readHead.len)).length = bodyLengthOf m.readHead.len :=
    List.length_take_of_le (Nat.le_of_not_lt hbody)
  by_cases hz : bodyLengthOf m.readHead.len = 0
  · -- no body: `handle_read_header` runs `handle_read_body` itself, on the stale buffer
    have hdel := delivered_fillBody hid hlen
    rw [ReadSide.handleReadHeader_empty hz] at hloop
    refine ⟨_, rest, _, ⟨rfl, hid⟩, by rw [hz, List.drop_zero], ?_, hloop⟩
    refine ⟨rfl, hlen.symm, ?_, ?_, hid⟩
    · exact Nat.le_trans (Nat.le_of_eq hz) (Nat.zero_le _)
    · show List.take (bodyLengthOf m.readHead.len) _ = _
      rw [hz, List.take_zero, List.take_zero]
  · -- a second read takes the body
    obtain ⟨rest', hrest', hloop'⟩ :=
      readLoop_body (m.accepted m.readHead) (Nat.pos_of_ne_zero hz) hbody
    rw [ReadSide.handleReadHeader_body hok (Nat.pos_of_ne_zero hz)] at hloop
    refine ⟨_, rest', _, ⟨rfl, ?_⟩, hrest', delivered_fillBody hid hlen, hloop.trans hloop'⟩
    exact hid

end Boundary

/-! ## The simulation -/

/-- The session stands where the reference parser stopped. -/
def StoppedAt (id : Bytes) (r : ReadSide) (rest : List Bytes) : Stop → Prop
  | .inHeader left => AtBoundary id r ∧ rest.flatten = left
  | .inBody left   => r.pending ≠ none ∧ rest.flatten = left
  | .badLength     => r.pending = none

/-- What a session does after its last delivery: only a bad length makes it close. -/
def closing : Stop → List ReadAct
  | .badLength => [.close]
  | _          => []

/-- **The read loop refines the reference parser.** From a frame boundary, whatever `read_msg_` holds and
    however the stream is cut, the session delivers the parser's frames in order and stops where it does. -/
theorem readLoop_refines (id : Bytes) (bs : Bytes) :
    ∀ (r : ReadSide) (segs : List Bytes), AtBoundary id r → segs.flatten = bs →
      ∃ r' rest msgs,
        readLoop r segs = (r', rest, msgs.map ReadAct.push ++ closing (parseFrames bs).2) ∧
        List.Forall₂ (Delivered id) (deliverable (parseFrames bs).1) msgs ∧
        StoppedAt id r' rest (parseFrames bs).2 := by
  induction bs using parseFrames.induct with
  | case1 bs h12 =>
      intro r segs hr hbs
      subst hbs
      rw [parseFrames_starved h12]
      exact ⟨r, segs, [], readLoop_starved hr.1 h12, .nil, hr, rfl⟩
  | case2 bs h12 h hbad =>
      intro r segs hr hbs
      subst hbs
      have hlt : maxBodyLength < bodyLengthOf (headOf segs.flatten).len := (bad_length_iff _).mp hbad
      obtain ⟨r', rest, hloop, hp⟩ := readLoop_badLength hr h12 hlt
      rw [parseFrames_badLength h12 hlt]
      exact ⟨r', rest, [], hloop, .nil, hp⟩
  | case3 bs h12 h hok n hshort =>
      intro r segs hr hbs
      subst hbs
      have hle : bodyLengthOf (headOf segs.flatten).len ≤ maxBodyLength :=
        Nat.le_of_not_lt (fun hlt => hok ((bad_length_iff _).mpr hlt))
      have hn : n = bodyLengthOf (headOf segs.flatten).len := bodyLengthOf_toNat hle
      obtain ⟨r', rest, hloop, hp, hrest⟩ := readLoop_inBody hr h12 hle (hn ▸ hshort)
      rw [parseFrames_inBody h12 hle (hn ▸ hshort)]
      exact ⟨r', rest, [], hloop, .nil, hp, hrest⟩
  | case4 bs h12 h hok n hbody ih =>
      intro r segs hr hbs
      subst hbs
      have hle : bodyLengthOf (headOf segs.flatten).len ≤ maxBodyLength :=
        Nat.le_of_not_lt (fun hlt => hok ((bad_length_iff _).mpr hlt))
      have hn : n = bodyLengthOf (headOf segs.flatten).len := bodyLengthOf_toNat hle
      -- one frame, and the session is at a boundary of the rest, with another stale content
      obtain ⟨r1, rest1, m, hr1, hrest1, hdel, hloop⟩ := readLoop_frame hr h12 hle (hn ▸ hbody)
      obtain ⟨r', rest, msgs, hnext, hall, hstop⟩ := ih r1 rest1 hr1 (hn ▸ hrest1)
      rw [hn] at hnext hall hstop
      rw [parseFrames_frame h12 hle (hn ▸ hbody)]
      -- the frame's message goes in front of what the rest of the stream delivers, unless it is a keepalive
      rcases ReadSide.afterBodyGet_eq m with ⟨hcmd, hacts⟩ | ⟨hcmd, hacts⟩
      · rw [hdel.head] at hcmd
        refine ⟨r', rest, msgs, ?_, ?_, hstop⟩
        · rw [hloop, resume, hnext, hacts, List.nil_append]
        · rw [deliverable_cons_keepalive hcmd]
          exact hall
      · rw [hdel.head] at hcmd
        refine ⟨r', rest, m :: msgs, ?_, ?_, hstop⟩
        · rw [hloop, resume, hnext, hacts]
          rfl
        · rw [deliverable_cons_of_ne hcmd]
          exact .cons hdel hall

/-- **Input that ends anywhere.** When the peer closes, a session that stopped where the reference parser did
    closes too, once. -/
theorem readToEnd_of_readLoop {id : Bytes} {r r' : ReadSide} {segs rest : List Bytes}
    {msgs : List MessageFormat} {stop : Stop}
    (hloop : readLoop r segs = (r', rest, msgs.map ReadAct.push ++ closing stop))
    (hstop : StoppedAt id r' rest stop) :
    (readToEnd r segs).2 = msgs.map ReadAct.push ++ [.close] := by
  unfold readToEnd
  simp only [hloop]
  -- after a bad length nothing is outstanding; otherwise the outstanding read fails
  cases stop with
  | badLength =>
      rw [show r'.pending = none from hstop]
      rfl
  | inHeader left =>
      rw [show r'.pending = some .header from hstop.1.1]
      simp [closing, ReadSide.fail_eq]
  | inBody left =>
      cases hp : r'.pending with
      | none => exact absurd hp hstop.1
      | some p => simp [closing, ReadSide.fail_eq]

/-! ## Streams of frames -/

/-- A sender's frame, with the length field `encode_header` computes. -/
def frameOf (hb : Head × Bytes) : Frame :=
  ({ hb.1 with len := BitVec.ofNat 32 (messageHeadLength + hb.2.length) }, hb.2)

/-- What a sender puts on the wire for a head and a body. -/
def wireOf (hb : Head × Bytes) : Bytes := (MessageFormat.new.framed hb.1 hb.2).wire

theorem wireOf_eq (hb : Head × Bytes) : wireOf hb = headBytes hb.1 hb.2.length ++ hb.2 :=
  MessageFormat.framed_wire _ _ _

/-- The reference parser takes a frame off the front of a stream. -/
theorem parseFrames_wireOf {hb : Head × Bytes} (hle : hb.2.length ≤ maxBodyLength) (tail : Bytes) :
    parseFrames (wireOf hb ++ tail) = (frameOf hb :: (parseFrames tail).1, (parseFrames tail).2) := by
  obtain ⟨h, b⟩ := hb
  have hlen : (headBytes h b.length).length = 12 := MessageFormat.headBytes_length h _
  have hbl : bodyLengthOf (frameOf (h, b)).1.len = b.length := MessageFormat.bodyLengthOf_ofNat hle
  have hhead : headOf (headBytes h b.length ++ (b ++ tail)) = (frameOf (h, b)).1 :=
    MessageFormat.headOf_headBytes h b.length (b ++ tail)
  rw [wireOf_eq, List.append_assoc, parseFrames_frame (by simp [hlen]) (by rw [hhead, hbl]; exact hle)
    (by rw [hhead, hbl, List.drop_left' hlen]; simp), hhead, hbl, ← List.drop_drop,
    List.drop_left' hlen, List.drop_left, List.take_left]
  rfl

theorem parseFrames_frames {hbs : List (Head × Bytes)} (hle : ∀ hb ∈ hbs, hb.2.length ≤ maxBodyLength) :
    parseFrames (hbs.map wireOf).flatten = (hbs.map frameOf, .inHeader []) := by
  induction hbs with
  | nil => rw [parseFrames]; rfl
  | cons hb hbs ih =>
      rw [List.map_cons, List.flatten_cons, parseFrames_wireOf (hle hb (List.mem_cons_self)),
        ih (fun x hx => hle x (List.mem_cons_of_mem _ hx))]
      rfl

/-- **Stream round trip.** A concatenation of frames within the limit is delivered frame by frame, and the
    session is at a boundary with nothing left over. -/
theorem readLoop_frames {id : Bytes} {r : ReadSide} (hr : AtBoundary id r) {hbs : List (Head × Bytes)}
    (hle : ∀ hb ∈ hbs, hb.2.length ≤ maxBodyLength) {segs : List Bytes}
    (hsegs : segs.flatten = (hbs.map wireOf).flatten) :
    ∃ r' rest msgs, readLoop r segs = (r', rest, msgs.map ReadAct.push) ∧
      List.Forall₂ (Delivered id) (deliverable (hbs.map frameOf)) msgs ∧
      AtBoundary id r' ∧ rest.flatten = [] := by
  obtain ⟨r', rest, msgs, hloop, hall, hstop⟩ := readLoop_refines id _ r segs hr hsegs
  rw [parseFrames_frames hle] at hloop hall hstop
  exact ⟨r', rest, msgs, by rw [hloop]; simp [closing], hall, hstop⟩

end BServer
