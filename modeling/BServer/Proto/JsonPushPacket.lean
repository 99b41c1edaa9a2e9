import BServer.Proto.StyledJson

/-!
# `Proto.JsonPushPacket` — a push packet in JSON, and the response to it

`json_push_packet` reads a packet and keeps the part its type selects in `pt_helper_`, which the accessors answer
from. They look at it through `operator[]`, so each of them also says what it makes of the packet.

`to_push_packet_response` writes a packet of type `11`. Its reader answers the client and the type it was made of,
and leaves the packet as it is. The id has 64 bits on both sides and 32 in between: it comes back exactly if those
are enough (`push_response_iff`).
-/

namespace BServer

open Bytes

structure JsonPushPacket where
  value      : Json
  packetType : Int
  deviceId   : Int
  sn         : Bytes
  ptHelper   : Json

namespace JsonPushPacket

variable (lib : JsonCpp)

/-- The member variables before anything is read. -/
def blank : JsonPushPacket := ⟨.null, 0, 1, [], .null⟩

/-- `init_packet_type`. -/
def initPacketType (p : JsonPushPacket) : Option JsonPushPacket := do
  let (type, value) ← p.value.index (ascii "type")
  let packetType ← if type.isInt then value.get (ascii "type") (.int 0) >>= lib.asInt else pure p.packetType
  let (device, value) ← value.index (ascii "device")
  let deviceId ← if device.isInt then value.get (ascii "device") (.int 1) >>= lib.asInt else pure p.deviceId
  let (sn, value) ← value.index (ascii "sn")
  let sn ← if sn.isString then value.get (ascii "sn") (.string []) >>= lib.asString else pure p.sn
  if packetType = 10 then
    let (ptHelper, value) ← value.index (ascii "push_req")
    return ⟨value, packetType, deviceId, sn, ptHelper⟩
  else if packetType = 11 then
    let (ptHelper, value) ← value.index (ascii "push_resp")
    return ⟨value, packetType, deviceId, sn, ptHelper⟩
  else
    return ⟨value, packetType, deviceId, sn, p.ptHelper⟩

/-- The constructor. -/
def new (json : Bytes) : Option JsonPushPacket :=
  match JsonParser.decode lib json with
  | some value => initPacketType lib { blank with value := value }
  | none       => some blank

variable (p : JsonPushPacket)

/-! ## The accessors

What they return, and what they make of the packet. -/

/-- `cid`. -/
def cid : Option (List Bytes × JsonPushPacket) :=
  if p.ptHelper.size > 0 then do
    let (cid, ptHelper) ← p.ptHelper.index (ascii "cid")
    if cid.isArray then
      return (← cid.elements.mapM lib.asString, { p with ptHelper := ptHelper })
    else
      return ([← lib.asString (← ptHelper.get (ascii "cid") (.string []))], { p with ptHelper := ptHelper })
  else some ([], p)

/-- `type`. A number is answered as its numeral. -/
def type : Option (Bytes × JsonPushPacket) :=
  if p.ptHelper.size > 0 then do
    let (type, ptHelper) ← p.ptHelper.index (ascii "type")
    if type.isString then
      return (← lib.asString (← ptHelper.get (ascii "type") (.string [])), { p with ptHelper := ptHelper })
    else if type.isInt then
      return (decimalInt (← lib.asInt (← ptHelper.get (ascii "type") (.int 0))), { p with ptHelper := ptHelper })
    else
      return ([], { p with ptHelper := ptHelper })
  else some ([], p)

/-- How `msgid` and `expiry` are answered; they leave the packet alone. -/
def unsignedMember (key : Bytes) : Option Int :=
  if p.ptHelper.size > 0 then do
    return (← lib.asUInt (← p.ptHelper.get key (.int 0))).toNat
  else some (-1)

def msgid : Option Int := p.unsignedMember lib (ascii "msgid")

def expiry : Option Int := p.unsignedMember lib (ascii "expiry")

/-- `data`. -/
def data : Option Bytes :=
  if p.ptHelper.size > 0 then do lib.asString (← p.ptHelper.get (ascii "data") (.string []))
  else some []

/-! ## The response -/

/-- The value that `to_push_packet_response` puts together, with the cast of the id. -/
def pushPacketResponse (cid type : Bytes) (msgid : BitVec 64) : Option Json := do
  let ptPacket ← Json.null.assign (ascii "type") (.int 11)
  let ptResponse ← Json.null.assign (ascii "cid") (.string cid)
  let ptResponse ← ptResponse.assign (ascii "type") (.string type)
  let ptResponse ← ptResponse.assign (ascii "msgid") (.int (msgid.setWidth 32).toNat)
  ptPacket.assign (ascii "push_resp") ptResponse

/-- `to_push_packet_response`. -/
def toPushPacketResponse (cid type : Bytes) (msgid : BitVec 64) : Option Bytes :=
  (pushPacketResponse cid type msgid).map (JsonParser.encode lib)

/-! ## Reading a response back -/

/-- The members of the part of a response that answers. -/
def responseMembers (cid type : Bytes) (msgid : BitVec 64) : List (Bytes × Json) :=
  [(ascii "cid", .string cid), (ascii "msgid", .int (msgid.setWidth 32).toNat), (ascii "type", .string type)]

/-- The members of a response. -/
def packetMembers (cid type : Bytes) (msgid : BitVec 64) : List (Bytes × Json) :=
  [(ascii "push_resp", .object (responseMembers cid type msgid)), (ascii "type", .int 11)]

variable {lib}

theorem pushPacketResponse_eq (cid type : Bytes) (msgid : BitVec 64) :
    pushPacketResponse cid type msgid = some (.object (packetMembers cid type msgid)) := rfl

theorem plain_packetMembers {cid type : Bytes} (hcid : 0 ∉ cid) (htype : 0 ∉ type) (msgid : BitVec 64) :
    (Json.object (packetMembers cid type msgid)).Plain := by
  have hmsgid : -2 ^ 31 ≤ ((msgid.setWidth 32).toNat : Int) ∧ ((msgid.setWidth 32).toNat : Int) < 2 ^ 32 := by
    have hlt := (msgid.setWidth 32).isLt
    omega
  have hresponse : (Json.object (responseMembers cid type msgid)).Plain := by
    have hkeys : (responseMembers cid type msgid).map Prod.fst = [ascii "cid", ascii "msgid", ascii "type"] := rfl
    refine .object (by rw [hkeys]; decide) (by rw [hkeys]; decide) ?_
    intro m hm
    simp only [responseMembers, List.mem_cons, List.not_mem_nil, or_false] at hm
    rcases hm with rfl | rfl | rfl
    · exact .string hcid
    · exact .int hmsgid
    · exact .string htype
  have hkeys : (packetMembers cid type msgid).map Prod.fst = [ascii "push_resp", ascii "type"] := rfl
  refine .object (by rw [hkeys]; decide) (by rw [hkeys]; decide) ?_
  intro m hm
  simp only [packetMembers, List.mem_cons, List.not_mem_nil, or_false] at hm
  rcases hm with rfl | rfl
  · exact hresponse
  · exact .int (by decide)

/-- The packet that a response is read as. -/
def responsePacket (cid type : Bytes) (msgid : BitVec 64) : JsonPushPacket where
  value := .object [(ascii "device", .null), (ascii "push_resp", .object (responseMembers cid type msgid)),
    (ascii "sn", .null), (ascii "type", .int 11)]
  packetType := 11
  deviceId := 1
  sn := []
  ptHelper := .object (responseMembers cid type msgid)

/-- Its type selects the part that answers; looking for a device and a number creates them as null. -/
theorem initPacketType_response (h : lib.Faithful) (cid type : Bytes) (msgid : BitVec 64) :
    initPacketType lib { blank with value := .object (packetMembers cid type msgid) }
      = some (responsePacket cid type msgid) := by
  let value : Json := .object (packetMembers cid type msgid)
  let withDevice : Json := .object ((ascii "device", .null) :: packetMembers cid type msgid)
  have htype : value.index (ascii "type") = some (.int 11, value) := rfl
  have hget : value.get (ascii "type") (.int 0) = some (.int 11) := rfl
  have hasInt : lib.asInt (.int 11) = some 11 := h.asInt_int 11 (by decide) (by decide)
  have hdevice : value.index (ascii "device") = some (.null, withDevice) := rfl
  have hsn : withDevice.index (ascii "sn") = some (.null, (responsePacket cid type msgid).value) := rfl
  have hresponse : (responsePacket cid type msgid).value.index (ascii "push_resp")
      = some ((responsePacket cid type msgid).ptHelper, (responsePacket cid type msgid).value) := rfl
  show initPacketType lib { blank with value := value } = _
  simp only [initPacketType, htype, hget, hasInt, hdevice, hsn, hresponse, Option.bind_eq_bind, Option.bind_some]
  rfl

/-- The packet that is read from a response. -/
theorem new_toPushPacketResponse (h : lib.Faithful) {cid type : Bytes} (hcid : 0 ∉ cid) (htype : 0 ∉ type)
    (msgid : BitVec 64) :
    (toPushPacketResponse lib cid type msgid).bind (new lib) = some (responsePacket cid type msgid) := by
  have hdecode := JsonParser.decode_encode h (plain_packetMembers hcid htype msgid)
  rw [toPushPacketResponse, pushPacketResponse_eq, Option.map_some, Option.bind_some, new, hdecode]
  exact initPacketType_response h cid type msgid

section Accessors

variable (h : lib.Faithful) {cid type : Bytes} (msgid : BitVec 64)

theorem size_responsePacket : (responsePacket cid type msgid).ptHelper.size > 0 := Nat.zero_lt_succ 2

include h

theorem cid_responsePacket (hcid : 0 ∉ cid) :
    (responsePacket cid type msgid).cid lib = some ([cid], responsePacket cid type msgid) := by
  let p := responsePacket cid type msgid
  have hindex : p.ptHelper.index (ascii "cid") = some (.string cid, p.ptHelper) := rfl
  have hget : p.ptHelper.get (ascii "cid") (.string []) = some (.string cid) := rfl
  show p.cid lib = some ([cid], p)
  rw [JsonPushPacket.cid, if_pos (size_responsePacket msgid)]
  simp only [hindex, hget, h.asString_string cid hcid, Option.bind_eq_bind, Option.bind_some]
  rfl

theorem type_responsePacket (htype : 0 ∉ type) :
    (responsePacket cid type msgid).type lib = some (type, responsePacket cid type msgid) := by
  let p := responsePacket cid type msgid
  have hindex : p.ptHelper.index (ascii "type") = some (.string type, p.ptHelper) := rfl
  have hget : p.ptHelper.get (ascii "type") (.string []) = some (.string type) := rfl
  show p.type lib = some (type, p)
  rw [JsonPushPacket.type, if_pos (size_responsePacket msgid)]
  simp only [hindex, hget, h.asString_string type htype, Option.bind_eq_bind, Option.bind_some]
  rfl

/-- The id comes back as what the cast left of it. -/
theorem msgid_responsePacket :
    (responsePacket cid type msgid).msgid lib = some ((msgid.setWidth 32).toNat : Int) := by
  let p := responsePacket cid type msgid
  have hget : p.ptHelper.get (ascii "msgid") (.int 0) = some (.int (msgid.setWidth 32).toNat) := rfl
  show p.unsignedMember lib (ascii "msgid") = _
  rw [unsignedMember, if_pos (size_responsePacket msgid)]
  simp only [hget, h.asUInt_int, Option.bind_eq_bind, Option.bind_some]
  rfl

end Accessors

/-- A response is read back as a packet that answers what it was made of. -/
def RoundTrips (lib : JsonCpp) (cid type : Bytes) (msgid : BitVec 64) : Prop :=
  ∃ p, (toPushPacketResponse lib cid type msgid).bind (new lib) = some p ∧ p.packetType = 11 ∧
    p.cid lib = some ([cid], p) ∧ p.type lib = some (type, p) ∧ p.msgid lib = some msgid.toInt

/-- The cast keeps an id that is not negative exactly if 32 bits hold it. -/
theorem cast_eq_iff {msgid : BitVec 64} (h : 0 ≤ msgid.toInt) :
    ((msgid.setWidth 32).toNat : Int) = msgid.toInt ↔ msgid.toInt < 2 ^ 32 := by
  have hlt := msgid.isLt
  rw [BitVec.toInt_eq_toNat_cond] at h ⊢
  rw [BitVec.toNat_setWidth]
  split at h
  · next hsmall =>
      rw [if_pos hsmall]
      omega
  · omega

/-- **Which responses come back.** For every client and type without a zero byte, and every id that is not
    negative, the packet that is read from a response has type `11` and answers the client, the type and the id
    exactly if the id is less than `2 ^ 32`. -/
theorem push_response_iff (h : lib.Faithful) {cid type : Bytes} (hcid : 0 ∉ cid) (htype : 0 ∉ type)
    {msgid : BitVec 64} (hmsgid : 0 ≤ msgid.toInt) :
    RoundTrips lib cid type msgid ↔ msgid.toInt < 2 ^ 32 := by
  have hnew := new_toPushPacketResponse h hcid htype msgid
  rw [← cast_eq_iff hmsgid]
  constructor
  · rintro ⟨p, hp, _, _, _, hanswered⟩
    obtain rfl := Option.some.inj (hnew.symm.trans hp)
    rw [msgid_responsePacket h] at hanswered
    exact Option.some.inj hanswered
  · intro hcast
    refine ⟨_, hnew, rfl, cid_responsePacket h msgid hcid, type_responsePacket h msgid htype, ?_⟩
    rw [msgid_responsePacket h, hcast]

/-- An id of nine digits comes back. -/
theorem push_response_small :
    toPushPacketResponse StyledJson.library (ascii "u1") (ascii "200") 123456789
        = some (ascii "\x7b\n   \"push_resp\" : \x7b\n      \"cid\" : \"u1\",\n      \"msgid\" : 123456789,\n"
            ++ ascii "      \"type\" : \"200\"\n   \x7d,\n   \"type\" : 11\n\x7d\n") ∧
      RoundTrips StyledJson.library (ascii "u1") (ascii "200") 123456789 :=
  ⟨by decide,
    (push_response_iff StyledJson.library_faithful (by decide) (by decide) (by decide)).mpr (by decide)⟩

/-- The id `2 ^ 32` is answered as `0`. -/
theorem push_response_large :
    ¬ ∀ lib : JsonCpp, lib.Faithful → ∀ (cid type : Bytes) (msgid : BitVec 64), 0 ∉ cid → 0 ∉ type →
      0 ≤ msgid.toInt → RoundTrips lib cid type msgid := by
  intro h
  have hlib := StyledJson.library_faithful
  have hcid : 0 ∉ ascii "u1" := by decide
  have htype : 0 ∉ ascii "200" := by decide
  obtain ⟨p, hp, _, _, _, hanswered⟩ := h _ hlib _ _ 4294967296 hcid htype (by decide)
  obtain rfl := Option.some.inj ((new_toPushPacketResponse hlib hcid htype 4294967296).symm.trans hp)
  rw [msgid_responsePacket hlib] at hanswered
  exact absurd (Option.some.inj hanswered) (by decide)

end JsonPushPacket

end BServer
