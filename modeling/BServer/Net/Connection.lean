import BServer.Net.Session
import BServer.Net.WriteQueue

/-!
# `Net.Connection` — the two ends of a connection

Both ends of a connection run the code of `session_base`: whatever any number of threads `write` on one end
goes through its queue, over the wire in pieces of any size, and through the read handlers of the other end,
which see it cut up in other pieces.

`connection_delivers` puts the two halves together. At any moment before a write fails, if no body is too long,
the other end has queued the frames of a prefix of the `write` calls, in order, each once, as they were written;
what it has not queued yet is what the sender's queue holds, but for a front message that is sent and not
completed; and it did not close. The argument is about one point of the stream: the wire may end inside a frame,
and a cut frame makes the reader wait, and nothing else (`parseFrames_cut`).
-/

namespace BServer

open Bytes
open MessageFormat (bodyLengthOf headBytes)

/-! ## A stream that ends inside a frame -/

/-- The parser waits for more of the stream. -/
def Stop.Waits : Stop → Prop
  | .badLength => False
  | _ => True

theorem parseFrames_append {hbs : List (Head × Bytes)} (hle : ∀ hb ∈ hbs, hb.2.length ≤ maxBodyLength)
    (tail : Bytes) : parseFrames ((hbs.map wireOf).flatten ++ tail)
      = (hbs.map frameOf ++ (parseFrames tail).1, (parseFrames tail).2) := by
  induction hbs with
  | nil => rfl
  | cons hb hbs ih =>
      rw [List.map_cons, List.flatten_cons, List.append_assoc, parseFrames_wireOf (hle hb List.mem_cons_self),
        ih fun x hx => hle x (List.mem_cons_of_mem _ hx)]
      rfl

theorem wireOf_length (hb : Head × Bytes) : (wireOf hb).length = 12 + hb.2.length := by
  rw [wireOf_eq, List.length_append]
  rfl

/-- **A cut frame.** It yields nothing, and the parser waits for its rest. -/
theorem parseFrames_cut {hb : Head × Bytes} (hle : hb.2.length ≤ maxBodyLength) {n : Nat}
    (hn : n < (wireOf hb).length) :
    (parseFrames ((wireOf hb).take n)).1 = [] ∧ (parseFrames ((wireOf hb).take n)).2.Waits := by
  rw [wireOf_length] at hn
  by_cases h12 : n < 12
  · -- inside the header
    have hlen : ((wireOf hb).take n).length < 12 := Nat.lt_of_le_of_lt (List.length_take_le _ _) h12
    rw [parseFrames_starved hlen]
    exact ⟨rfl, trivial⟩
  · -- inside the body: the header is all there
    have htake : (wireOf hb).take n = headBytes hb.1 hb.2.length ++ hb.2.take (n - 12) := by
      rw [wireOf_eq, List.take_append, MessageFormat.headBytes_length, messageHeadLength,
        List.take_of_length_le (by rw [MessageFormat.headBytes_length, messageHeadLength]; omega)]
    have hhead : headOf ((wireOf hb).take n) = (frameOf hb).1 := by
      rw [htake]
      exact MessageFormat.headOf_headBytes hb.1 hb.2.length _
    have hbl : bodyLengthOf (frameOf hb).1.len = hb.2.length := MessageFormat.bodyLengthOf_ofNat hle
    have hlen : ((wireOf hb).take n).length = n := by
      rw [List.length_take, wireOf_length]
      omega
    have hshort : (((wireOf hb).take n).drop 12).length < hb.2.length := by
      rw [List.length_drop, hlen]
      omega
    rw [parseFrames_inBody (by rw [hlen]; exact h12) (by rw [hhead, hbl]; exact hle)
      (by rw [hhead, hbl]; exact hshort)]
    exact ⟨rfl, trivial⟩

/-! ## The sender -/

namespace WriteLink

/-- The head and body an event hands to the session. -/
def Event.frames : Event → List (Head × Bytes)
  | .write _ h body => [(h, body)]
  | _ => []

/-- An accepted message is on the wire what its head and body are, whatever it was built in. -/
theorem wire_accepts (es : List Event) :
    (es.flatMap Event.accepts).map MessageFormat.wire = (es.flatMap Event.frames).map wireOf := by
  induction es with
  | nil => rfl
  | cons e es ih =>
      rw [List.flatMap_cons, List.flatMap_cons, List.map_append, List.map_append, ih]
      congr 1
      cases e with
      | write m h body =>
          show [(m.framed h body).wire] = [wireOf (h, body)]
          rw [wireOf_eq, MessageFormat.framed_wire]
      | transfer i k => rfl
      | done i => rfl
      | error i => rfl

/-- **The wire.** It holds the frames of the first calls, and a part of the next one, which is not all of it;
    the queue holds the messages of the calls after them, behind that of the last one sent if its completion is
    still to come. -/
structure Carries (l : WriteLink) (calls : List (Head × Bytes)) (whole : Nat) : Prop where
  le    : whole ≤ calls.length
  rest  : ∃ sent ≤ 1, sent ≤ whole ∧ l.side.writeMsgs = l.accepted.drop (whole - sent)
  wire  : l.wire = ((calls.take whole).map wireOf).flatten ∨
    ∃ hb n, calls[whole]? = some hb ∧ n < (wireOf hb).length ∧
      l.wire = ((calls.take whole).map wireOf).flatten ++ (wireOf hb).take n

/-- No more was accepted than is carried and queued. -/
theorem Carries.length_le {l : WriteLink} {calls : List (Head × Bytes)} {whole : Nat} (h : l.Carries calls whole) :
    l.accepted.length ≤ whole + l.side.writeMsgs.length := by
  obtain ⟨sent, _, _, hrest⟩ := h.rest
  have hlen := congrArg List.length hrest
  rw [List.length_drop] at hlen
  omega

theorem healthy_of_not_failed {es : List Event} {l : WriteLink} (hrun : Run.run step fresh es = some l)
    (hok : l.failed = false) : Healthy l := by
  rcases healthy_or_wedged hrun with h | h
  · exact h
  · rw [h.failed] at hok
    cases hok

theorem carries {es : List Event} {l : WriteLink} (hrun : Run.run step fresh es = some l)
    (hok : l.failed = false) : ∃ whole, l.Carries (es.flatMap Event.frames) whole := by
  have hhealthy := healthy_of_not_failed hrun hok
  have hacc := accepted_run hrun
  have hwires := wire_accepts es
  rw [← hacc] at hwires
  generalize es.flatMap Event.frames = calls at hwires ⊢
  -- the calls before a message, in terms of the messages
  have htake : ∀ n, ((calls.take n).map wireOf).flatten = bytesOf (l.accepted.take n) := by
    intro n
    rw [bytesOf, List.map_take, List.map_take, hwires]
  have hlen : calls.length = l.accepted.length := by
    have h := congrArg List.length hwires
    rw [List.length_map, List.length_map] at h
    exact h.symm
  cases hhealthy with
  | idle accepted started =>
      refine ⟨accepted.length, Nat.le_of_eq hlen.symm, ⟨0, Nat.zero_le _, Nat.zero_le _,
        List.drop_length.symm⟩, Or.inl ?_⟩
      rw [htake]
      exact (congrArg bytesOf (List.take_length (l := accepted))).symm
  | busy written m queued sent started hsent hsizes =>
      simp only at hlen htake hwires
      have hwritten : ((calls.take written.length).map wireOf).flatten = bytesOf written := by
        rw [htake, List.take_left]
      have hlen' : calls.length = written.length + (queued.length + 1) := by
        rw [hlen, List.length_append]
        rfl
      have hlt : written.length < calls.length := by omega
      -- the message being written is the next call
      have hnext : wireOf calls[written.length] = m.wire := by
        have h : (calls.map wireOf)[written.length]? = ((written ++ m :: queued).map MessageFormat.wire)[written.length]? :=
          by rw [hwires]
        rw [List.getElem?_map, List.getElem?_map, List.getElem?_eq_getElem hlt, List.getElem?_append_right
          (Nat.le_refl _), Nat.sub_self] at h
        exact Option.some.inj h
      have hsize : m.wire.length = m.length := by
        rw [MessageFormat.wire, List.length_take, hsizes m List.mem_cons_self, Nat.min_self]
      rcases Nat.lt_or_ge sent m.length with hcut | hall
      · refine ⟨written.length, Nat.le_of_lt hlt, ⟨0, Nat.zero_le _, Nat.zero_le _, List.drop_left.symm⟩,
          Or.inr ⟨_, sent, List.getElem?_eq_getElem hlt, ?_, ?_⟩⟩
        · rw [hnext, hsize]
          exact hcut
        · rw [hwritten, hnext]
      · -- all of it was sent, and its completion is still to come
        refine ⟨written.length + 1, hlt, ⟨1, Nat.le_refl _, Nat.le_add_left 1 _, List.drop_left.symm⟩, Or.inl ?_⟩
        · rw [List.take_succ_eq_append_getElem hlt, List.map_append, List.flatten_append, hwritten]
          show _ = bytesOf written ++ [wireOf calls[written.length]].flatten
          rw [hnext, List.flatten_singleton, List.take_of_length_le (by rw [hsize]; exact hall)]

end WriteLink

/-! ## Both ends -/

/-- What a sender's wire parses to: the first calls, and the parser waits. -/
theorem WriteLink.Carries.parse {l : WriteLink} {calls : List (Head × Bytes)} {whole : Nat}
    (h : l.Carries calls whole) (hle : ∀ hb ∈ calls, hb.2.length ≤ maxBodyLength) :
    (parseFrames l.wire).1 = (calls.take whole).map frameOf ∧ (parseFrames l.wire).2.Waits := by
  have hle' : ∀ hb ∈ calls.take whole, hb.2.length ≤ maxBodyLength :=
    fun hb hhb => hle hb (List.mem_of_mem_take hhb)
  rcases h.wire with hw | ⟨hb, n, hat, hn, hw⟩
  · rw [hw, parseFrames_frames hle']
    exact ⟨rfl, trivial⟩
  · obtain ⟨hnone, hwaits⟩ := parseFrames_cut (hle hb (List.mem_of_getElem? hat)) hn
    rw [hw, parseFrames_append hle', hnone, List.append_nil]
    exact ⟨rfl, hwaits⟩

/-- However a stream reaches a session that was just brought up, whatever the session held before: it queues the
    frames of `calls`, keepalives left out, in order and intact, and waits for more. -/
def PeerQueues (stream : Bytes) (calls : List (Head × Bytes)) : Prop :=
  ∀ (up : BringUp) (connectCount : Int) (x : SessPtr) (address : Bytes) (port : Nat) (readMsg : MessageFormat)
    (r : Registries) (s : Session) (segs : List Bytes),
    s = (up.built connectCount x address port readMsg r).1 → s.shut = false → segs.flatten = stream →
    ∃ r' rest msgs, readLoop s.read segs = (r', rest, msgs.map ReadAct.push) ∧ r'.pending ≠ none ∧
      List.Forall₂ (Received s.id) (calls.filter (fun hb => hb.1.cmd ≠ 1)) msgs

/-- **The receiver.** -/
theorem WriteLink.Carries.peerQueues {l : WriteLink} {calls : List (Head × Bytes)} {whole : Nat}
    (h : l.Carries calls whole) (hle : ∀ hb ∈ calls, hb.2.length ≤ maxBodyLength) :
    PeerQueues l.wire (calls.take whole) := by
  intro up connectCount x address port readMsg r s segs hs hopen hsegs
  obtain ⟨hparse, hwaits⟩ := h.parse hle
  subst hs
  obtain ⟨r', rest, msgs, hloop, hall, hstop⟩ :=
    readLoop_refines _ l.wire _ segs (BringUp.opened hopen).boundary hsegs
  -- a parser that waits leaves the session reading
  have hreading : closing (parseFrames l.wire).2 = [] ∧ r'.pending ≠ none := by
    cases hend : (parseFrames l.wire).2 with
    | badLength =>
        rw [hend] at hwaits
        exact hwaits.elim
    | inHeader left =>
        rw [hend] at hstop
        refine ⟨rfl, ?_⟩
        rw [hstop.1.1]
        exact Option.some_ne_none _
    | inBody left =>
        rw [hend] at hstop
        exact ⟨rfl, hstop.1⟩
  refine ⟨r', rest, msgs, ?_, hreading.2, ?_⟩
  · rw [hloop, hreading.1, List.append_nil]
  · rw [hparse, deliverable_frames, List.forall₂_map_left_iff] at hall
    refine List.forall₂_iff_zip.mpr ⟨hall.length_eq, ?_⟩
    intro hb m hmem
    have hin : hb ∈ calls.take whole := (List.mem_filter.mp (List.of_mem_zip hmem).1).1
    exact ((List.forall₂_iff_zip.mp hall).2 hmem).received (hle hb (List.mem_of_mem_take hin))

/-- **A connection delivers.** After any interleaving on the sending end before a write fails, with bodies within
    the limit, whatever the receiving end held before and however the bytes arrive: it has queued the frames of the
    first `whole` calls of `write`, keepalives left out, in order and intact; the sender's queue is the messages of
    the calls after them, in order, behind that of the last of them if its completion is still to come; and the
    receiver waits for more without having closed. -/
theorem connection_delivers (es : List WriteLink.Event) (l : WriteLink)
    (hrun : Run.run WriteLink.step .fresh es = some l) (hok : l.failed = false)
    (hle : ∀ hb ∈ es.flatMap WriteLink.Event.frames, hb.2.length ≤ 1048576)
    (up : BringUp) (connectCount : Int) (x : SessPtr) (address : Bytes) (port : Nat) (readMsg : MessageFormat)
    (r : Registries) (s : Session) (hs : s = (up.built connectCount x address port readMsg r).1)
    (hopen : s.shut = false) (segs : List Bytes) (hsegs : segs.flatten = l.wire) :
    ∃ whole sent r' rest msgs, whole ≤ (es.flatMap WriteLink.Event.frames).length ∧ sent ≤ 1 ∧ sent ≤ whole ∧
      l.side.writeMsgs = (es.flatMap WriteLink.Event.accepts).drop (whole - sent) ∧
      readLoop s.read segs = (r', rest, msgs.map ReadAct.push) ∧ r'.pending ≠ none ∧
      List.Forall₂ (Received s.id)
        (((es.flatMap WriteLink.Event.frames).take whole).filter (fun hb => hb.1.cmd ≠ 1)) msgs := by
  obtain ⟨whole, hcarries⟩ := WriteLink.carries hrun hok
  obtain ⟨r', rest, msgs, hloop, hpending, hall⟩ :=
    hcarries.peerQueues hle up connectCount x address port readMsg r s segs hs hopen hsegs
  obtain ⟨sent, hsent, hwhole, hrest⟩ := hcarries.rest
  rw [WriteLink.accepted_run hrun] at hrest
  exact ⟨whole, sent, r', rest, msgs, hcarries.le, hsent, hwhole, hrest, hloop, hpending, hall⟩

/-- Two frames written, the first sent and five bytes of the second, cut in the first header. -/
theorem connection_delivers_two :
    let s := (BringUp.built .accept 1 0 (ascii "10.0.0.7") 80 .new .empty).1
    let es : List WriteLink.Event :=
      [.write .new ⟨1, 0, 200⟩ [7], .write .new ⟨1, 0, 201⟩ [], .transfer 0 13, .done 0, .transfer 0 5]
    let bytes := wireOf (⟨1, 0, 200⟩, [7]) ++ (wireOf (⟨1, 0, 201⟩, [])).take 5
    ∃ whole sent r' rest msgs, whole ≤ 2 ∧ sent ≤ 1 ∧ sent ≤ whole ∧
      [MessageFormat.new.framed ⟨1, 0, 201⟩ []] = (es.flatMap WriteLink.Event.accepts).drop (whole - sent) ∧
      readLoop s.read [bytes.take 4, bytes.drop 4] = (r', rest, msgs.map ReadAct.push) ∧ r'.pending ≠ none ∧
      List.Forall₂ (Received s.id)
        (((es.flatMap WriteLink.Event.frames).take whole).filter (fun hb => hb.1.cmd ≠ 1)) msgs := by
  intro s es bytes
  have h := connection_delivers es _ rfl rfl (by decide) .accept 1 0 (ascii "10.0.0.7") 80 .new .empty s rfl rfl
    [bytes.take 4, bytes.drop 4] (by decide)
  exact h

end BServer
