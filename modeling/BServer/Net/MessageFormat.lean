import BServer.Base.Bytes

/-!
# `Net.MessageFormat` — the 12-byte frame header and the buffer around it

`message_format` is one object with two lives. A *sender* calls `encodeHeader` and `bodyCombine`, and the
socket is handed the first `length` bytes of `body`. A *receiver* has the socket fill `head`, calls
`decodeHeader`, and has the socket fill the front of `body`; the object is never flushed, so every field
may be stale when the next header arrives.

The facts the rest of the development uses are the two halves of the header:
* `decodeHeader_status` — a header is accepted exactly when its signed length field lies in
  `[12, 12 + 1048576]`, although the source compares an unsigned value with `< 0`;
* `decodeHeader_encode` — decoding an encoded header of a body within the limit recovers every field.
-/

namespace BServer

open Bytes

/-- `int`, `ef::int32`: 32 bits, two's complement. -/
abbrev CInt := BitVec 32

/-- `meet_you::head`. -/
structure Head where
  magic : CInt
  len   : CInt
  cmd   : CInt
deriving DecidableEq, Repr

/-- The three big-endian words at the front of a buffer. -/
def headOf (bs : Bytes) : Head := ⟨ofBe32 bs, ofBe32 (bs.drop 4), ofBe32 (bs.drop 8)⟩

/-- `message_format::message_head_length`, which is `sizeof(meet_you::head)`. -/
def messageHeadLength : Nat := 12

/-- The limit `decode_header` puts on a body: `1024*1024`. -/
def maxBodyLength : Nat := 1024 * 1024

/-- `message_format`. `head_` is sized to 12 by the constructor and only ever rewritten at that size. -/
structure MessageFormat where
  head       : Bytes
  body       : Bytes
  bodyLength : Nat
  magic      : CInt
  len        : CInt
  cmd        : CInt
  remoteId   : Bytes
  serverId   : Bytes
  head_size  : head.length = messageHeadLength
deriving DecidableEq

namespace MessageFormat

/-- `message_format()`. The constructor leaves `magic_`, `len_` and `cmd_` unset; nothing reads them
    before `decode_header` has written them. -/
def new : MessageFormat :=
  ⟨List.replicate messageHeadLength 0, [], 0, 0, 0, 0, [], [], List.length_replicate⟩

def length (m : MessageFormat) : Nat := messageHeadLength + m.bodyLength

/-- `meet_head()`. -/
def meetHead (m : MessageFormat) : Head := ⟨m.magic, m.len, m.cmd⟩

/-- The payload as `try_pop` reads it: the first `body_length()` bytes at `body().data()`. -/
def payload (m : MessageFormat) : Bytes := m.body.take m.bodyLength

/-- The bytes `async_write` is given: the first `length()` bytes at `body().data()`. -/
def wire (m : MessageFormat) : Bytes := m.body.take m.length

/-- `h.len - message_head_length`, stored into a `size_t`: the difference wraps in 32 bits and a negative
    one becomes a huge unsigned value. -/
def bodyLengthOf (len : CInt) : Nat := ((len - 12#32).signExtend 64).toNat

/-- The three words at `head_.data()`. -/
def readHead (m : MessageFormat) : Head := headOf m.head

/-- The members `decode_header` sets before it checks anything. -/
def storeHead (m : MessageFormat) (h : Head) : MessageFormat :=
  { m with magic := h.magic, len := h.len, cmd := h.cmd, bodyLength := bodyLengthOf h.len }

/-- `message_format::decode_header`: the return value, the head written through the reference, and the
    object afterwards. -/
def decodeHeader (m : MessageFormat) : Int × Head × MessageFormat :=
  let h := m.readHead
  let m := m.storeHead h
  -- `body_length_` is unsigned, so the first test of the source never holds
  if m.bodyLength < 0 ∨ m.bodyLength > maxBodyLength then (-1, h, m)
  else (0, h, { m with body := resize m.body (messageHeadLength + m.bodyLength) })

/-- The header `encode_header` lays out; the length field is the byte count narrowed to 32 bits. -/
def headBytes (h : Head) (bodySize : Nat) : Bytes :=
  be32 h.magic ++ be32 (BitVec.ofNat 32 (messageHeadLength + bodySize)) ++ be32 h.cmd

theorem headBytes_length (h : Head) (n : Nat) : (headBytes h n).length = messageHeadLength := rfl

/-- `message_format::encode_header`. -/
def encodeHeader (m : MessageFormat) (h : Head) (body : Bytes) : MessageFormat :=
  { m with
    bodyLength := body.length
    head := headBytes h body.length
    body := body
    head_size := headBytes_length h body.length }

/-- `message_format::body_combine`. -/
def bodyCombine (m : MessageFormat) : MessageFormat := { m with body := m.head ++ m.body }

/-- A message ready to be written: `encode_header`, then `body_combine`. -/
def framed (m : MessageFormat) (h : Head) (body : Bytes) : MessageFormat :=
  (m.encodeHeader h body).bodyCombine

/-! ## Sending -/

@[simp] theorem framed_length (m : MessageFormat) (h : Head) (body : Bytes) :
    (m.framed h body).length = messageHeadLength + body.length := rfl

@[simp] theorem framed_body (m : MessageFormat) (h : Head) (body : Bytes) :
    (m.framed h body).body = headBytes h body.length ++ body := rfl

theorem framed_body_length (m : MessageFormat) (h : Head) (body : Bytes) :
    (m.framed h body).body.length = (m.framed h body).length := by
  rw [framed_body, framed_length, List.length_append, headBytes_length]

/-- What a framed message puts on the wire does not depend on the object it was built in. -/
theorem framed_wire (m : MessageFormat) (h : Head) (body : Bytes) :
    (m.framed h body).wire = headBytes h body.length ++ body := by
  rw [wire, ← framed_body_length, List.take_length, framed_body]

/-! ## Receiving -/

/-- **The range check.** The unsigned comparison accepts exactly the signed lengths in range, wrap-around
    included. -/
theorem bodyLengthOf_le_iff (len : CInt) :
    bodyLengthOf len ≤ maxBodyLength ↔ 12 ≤ len.toInt ∧ len.toInt ≤ 12 + maxBodyLength := by
  have hlen : len.toNat < 2 ^ 32 := len.isLt
  have hsub : (len - 12#32).toNat = (2 ^ 32 - 12 + len.toNat) % 2 ^ 32 := by
    rw [BitVec.toNat_sub]; rfl
  have hmsb : (len - 12#32).msb = decide (2 ^ 31 ≤ (len - 12#32).toNat) := BitVec.msb_eq_decide _
  rw [bodyLengthOf, BitVec.toNat_signExtend, BitVec.toNat_setWidth, hmsb, BitVec.toInt_eq_toNat_cond,
    maxBodyLength]
  by_cases hneg : 2 ^ 31 ≤ (len - 12#32).toNat
  · rw [if_pos (by simpa using hneg)]
    split <;> omega
  · rw [if_neg (by simpa using hneg)]
    split <;> omega

/-- For an accepted length the difference did not wrap. -/
theorem bodyLengthOf_eq {len : CInt} (h : bodyLengthOf len ≤ maxBodyLength) :
    (bodyLengthOf len : Int) = len.toInt - 12 := by
  have hlen : len.toNat < 2 ^ 32 := len.isLt
  obtain ⟨hlo, hhi⟩ := (bodyLengthOf_le_iff len).mp h
  have hsub : (len - 12#32).toNat = (2 ^ 32 - 12 + len.toNat) % 2 ^ 32 := by
    rw [BitVec.toNat_sub]; rfl
  have hmsb : (len - 12#32).msb = false := by
    rw [BitVec.msb_eq_decide, decide_eq_false_iff_not, hsub]
    rw [BitVec.toInt_eq_toNat_cond] at hlo hhi
    rw [maxBodyLength] at hhi
    split at hlo <;> omega
  rw [bodyLengthOf, BitVec.toNat_signExtend, BitVec.toNat_setWidth, hmsb, hsub]
  rw [BitVec.toInt_eq_toNat_cond] at hlo hhi ⊢
  rw [maxBodyLength] at hhi
  simp only [Bool.false_eq_true, if_false]
  split at hlo <;> omega

/-- The length field of a frame whose body is within the limit gives the body length back. -/
theorem bodyLengthOf_ofNat {n : Nat} (h : n ≤ maxBodyLength) :
    bodyLengthOf (BitVec.ofNat 32 (messageHeadLength + n)) = n := by
  have hn : n ≤ 1048576 := h
  have hint : (BitVec.ofNat 32 (messageHeadLength + n)).toInt = 12 + n := by
    rw [BitVec.toInt_eq_toNat_cond, BitVec.toNat_ofNat, messageHeadLength]
    split <;> omega
  have hle : bodyLengthOf (BitVec.ofNat 32 (messageHeadLength + n)) ≤ maxBodyLength := by
    rw [bodyLengthOf_le_iff, hint, maxBodyLength]
    omega
  have := bodyLengthOf_eq hle
  rw [hint] at this
  omega

/-- The object after an accepted header. -/
def accepted (m : MessageFormat) (h : Head) : MessageFormat :=
  { m.storeHead h with
    body := resize m.body (messageHeadLength + bodyLengthOf h.len)
    head_size := m.head_size }

theorem decodeHeader_accept {m : MessageFormat} (h : bodyLengthOf m.readHead.len ≤ maxBodyLength) :
    m.decodeHeader = (0, m.readHead, m.accepted m.readHead) := by
  have hnot : ¬ ((m.storeHead m.readHead).bodyLength < 0 ∨
      (m.storeHead m.readHead).bodyLength > maxBodyLength) := by
    simp only [storeHead]; omega
  simp only [decodeHeader]
  rw [if_neg hnot]
  rfl

theorem decodeHeader_reject {m : MessageFormat} (h : maxBodyLength < bodyLengthOf m.readHead.len) :
    m.decodeHeader = (-1, m.readHead, m.storeHead m.readHead) := by
  simp only [decodeHeader]
  exact if_pos (Or.inr h)

/-- **Acceptance.** `decode_header` returns `0` exactly when the signed length field is in range, and `-1`
    otherwise. -/
theorem decodeHeader_status (m : MessageFormat) :
    m.decodeHeader.1 = if 12 ≤ m.readHead.len.toInt ∧ m.readHead.len.toInt ≤ 12 + maxBodyLength
      then 0 else -1 := by
  by_cases h : bodyLengthOf m.readHead.len ≤ maxBodyLength
  · rw [decodeHeader_accept h, if_pos ((bodyLengthOf_le_iff _).mp h)]
  · rw [decodeHeader_reject (Nat.lt_of_not_le h), if_neg (fun hr => h ((bodyLengthOf_le_iff _).mpr hr))]

/-- The header bytes of a frame read back as the head they were made from, with the length they announce,
    whatever follows them. -/
theorem headOf_headBytes (h : Head) (n : Nat) (tail : Bytes) :
    headOf (headBytes h n ++ tail) = { h with len := BitVec.ofNat 32 (messageHeadLength + n) } := by
  rw [headOf, headBytes, List.append_assoc, List.append_assoc, ofBe32_be32_append]
  rw [List.drop_left' (be32_length _), ofBe32_be32_append]
  rw [show (8 : Nat) = 4 + 4 from rfl, ← List.drop_drop, List.drop_left' (be32_length _),
    List.drop_left' (be32_length _), ofBe32_be32_append]

theorem readHead_headBytes {m : MessageFormat} {h : Head} {n : Nat} (hm : m.head = headBytes h n) :
    m.readHead = { h with len := BitVec.ofNat 32 (messageHeadLength + n) } := by
  rw [readHead, hm, ← List.append_nil (headBytes h n), headOf_headBytes]

/-- **Header round trip.** Decoding the header of a frame whose body is within the limit succeeds and
    recovers magic, command and body length. -/
theorem decodeHeader_encode {m : MessageFormat} {h : Head} {n : Nat} (hm : m.head = headBytes h n)
    (hn : n ≤ maxBodyLength) :
    m.decodeHeader = (0, m.readHead, m.accepted m.readHead) ∧
    (m.accepted m.readHead).meetHead = { h with len := BitVec.ofNat 32 (messageHeadLength + n) } ∧
    (m.accepted m.readHead).bodyLength = n := by
  have hr := readHead_headBytes hm
  have hbl : bodyLengthOf m.readHead.len = n := by rw [hr]; exact bodyLengthOf_ofNat hn
  refine ⟨decodeHeader_accept (by rw [hbl]; exact hn), ?_, hbl⟩
  show m.readHead = _
  exact hr

/-! ## Frames of any size

`encode_header` refuses no body. What `decode_header` makes of the frame is decided by its limit, as long as the
byte count fits the length field. -/

/-- A length field that did not wrap is within the limit exactly when the body is. -/
theorem bodyLengthOf_ofNat_le_iff {n : Nat} (h : n < 2 ^ 32) :
    bodyLengthOf (BitVec.ofNat 32 (messageHeadLength + n)) ≤ maxBodyLength ↔ n ≤ maxBodyLength := by
  rw [bodyLengthOf_le_iff, BitVec.toInt_eq_toNat_cond, BitVec.toNat_ofNat, messageHeadLength, maxBodyLength]
  split <;> omega

/-- The length field a head announces, read back as a signed number. -/
theorem toInt_announced {n : Nat} (h : n ≤ maxBodyLength) :
    (BitVec.ofNat 32 (messageHeadLength + n)).toInt = messageHeadLength + n := by
  rw [maxBodyLength] at h
  rw [BitVec.toInt_eq_toNat_cond, BitVec.toNat_ofNat, messageHeadLength]
  split <;> omega

/-- **What an encoded frame decodes to.** A body within the limit comes back with its magic, its command, its
    size and the size of its frame; a longer one is refused. -/
theorem decodeHeader_encodeHeader {e d : MessageFormat} {h : Head} {b : Bytes}
    (hd : d.head = (e.encodeHeader h b).head) :
    (b.length ≤ maxBodyLength → d.decodeHeader.1 = 0 ∧ d.decodeHeader.2.1.magic = h.magic ∧
      d.decodeHeader.2.1.cmd = h.cmd ∧ d.decodeHeader.2.2.bodyLength = b.length ∧
      d.decodeHeader.2.1.len.toInt = messageHeadLength + b.length) ∧
    (maxBodyLength < b.length → b.length < 2 ^ 32 → d.decodeHeader.1 = -1) := by
  have hread := readHead_headBytes (h := h) (n := b.length) hd
  constructor
  · intro hle
    obtain ⟨hdecode, _, hlength⟩ := decodeHeader_encode hd hle
    rw [hdecode]
    refine ⟨rfl, ?_, ?_, hlength, ?_⟩
    · rw [hread]
    · rw [hread]
    · rw [hread]
      exact toInt_announced hle
  · intro hgt hlt
    have hlong : maxBodyLength < bodyLengthOf d.readHead.len := by
      rw [hread]
      exact Nat.lt_of_not_le (fun hle => Nat.not_le_of_gt hgt ((bodyLengthOf_ofNat_le_iff hlt).mp hle))
    rw [decodeHeader_reject hlong]

theorem decodeHeader_encodeHeader_short :
    let d := MessageFormat.new.encodeHeader ⟨7, 0, 200⟩ (ascii "ping")
    d.decodeHeader.1 = 0 ∧ d.decodeHeader.2.1.magic = 7 ∧ d.decodeHeader.2.1.cmd = 200 ∧
      d.decodeHeader.2.2.bodyLength = 4 ∧ d.decodeHeader.2.1.len.toInt = 16 :=
  (decodeHeader_encodeHeader (e := .new) (h := ⟨7, 0, 200⟩) (b := ascii "ping") rfl).1 (by decide)

/-- One byte over the limit. -/
theorem decodeHeader_encodeHeader_long :
    ¬ ∀ (e d : MessageFormat) (h : Head) (b : Bytes), d.head = (e.encodeHeader h b).head →
      d.decodeHeader.1 = 0 ∧ d.decodeHeader.2.1.magic = h.magic ∧ d.decodeHeader.2.1.cmd = h.cmd ∧
        d.decodeHeader.2.2.bodyLength = b.length ∧
        d.decodeHeader.2.1.len.toInt = messageHeadLength + b.length := by
  intro hall
  let h : Head := ⟨0, 0, 200⟩
  let b : Bytes := List.replicate (maxBodyLength + 1) 0
  let d := MessageFormat.new.encodeHeader h b
  have hlength : b.length = maxBodyLength + 1 := List.length_replicate
  have hlong : maxBodyLength < bodyLengthOf d.readHead.len := by
    rw [readHead_headBytes (h := h) (n := b.length) rfl, hlength]
    decide
  have hzero := (hall .new d h b rfl).1
  rw [decodeHeader_reject hlong] at hzero
  exact absurd hzero (by decide)

end MessageFormat

end BServer
