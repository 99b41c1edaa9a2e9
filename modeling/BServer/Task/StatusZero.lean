import BServer.Task.Reply
import BServer.Task.ServicePackage

/-!
# `Task.StatusZero` — what a reply with status 0 says

A `ServiceResponse` with status 0 is meant to say that its request was handled: the payload was a packet of a
type the handler serves, the store was asked and had no error to report, and the payload of the response is the
packet that answers (`ProperlyHandled`).

`0` is also the status a parser starts from. `service_package_responser` and `python_func_service_responser`
leave it there when the payload does not parse and when nobody serves its type, and a worker without a mongo
client answers a group request without touching the error text; each time the reply claims a success that did
not happen. `group_responser` changes the status on the first two of these. `status_zero_iff` is exact: the
status can be believed when the packet is served and, for the two group requests, the client is set.
-/

namespace BServer

open Bytes

/-! ## What the packets mean -/

namespace ServicePacket

/-- The client a request packet names, by the type of the request. -/
def requestCid (packet : ServicePacket) : Bytes :=
  if packet.type.getD 0 = 21 then (packet.replyRequest.getD {}).cid.getD []
  else if packet.type.getD 0 = 23 then (packet.postTopicRequest.getD {}).cid.getD []
  else if packet.type.getD 0 = 25 then (packet.publicServiceRequest.getD {}).cid.getD []
  else if packet.type.getD 0 = 27 then (packet.groupLbsNearRequest.getD {}).cid.getD []
  else if packet.type.getD 0 = 29 then (packet.groupCityRequest.getD {}).cid.getD []
  else (packet.pythonCoreRequest.getD {}).cid.getD []

/-- The client a response packet names, by the type of the response. -/
def responseCid (packet : ServicePacket) : Option Bytes :=
  if packet.type = some 22 then packet.replyResponse.bind (·.cid)
  else if packet.type = some 24 then packet.postTopicResponse.bind (·.cid)
  else if packet.type = some 26 then packet.publicServiceResponse.bind (·.cid)
  else if packet.type = some 28 then packet.groupLbsNearResponse.bind (·.cid)
  else if packet.type = some 30 then packet.groupCityResponse.bind (·.cid)
  else packet.pythonCoreResponse.bind (·.cid)

/-- The query a group request stands for. -/
def lookup (packet : ServicePacket) : Option StoreQuery :=
  if packet.type.getD 0 = 27 then
    let req := packet.groupLbsNearRequest.getD {}
    some (.findNear (ascii "service") (ascii "group_talk") (req.lat.getD 0) (req.long.getD 0)
      (req.maxDistance.getD 0) (req.start.getD 0) (req.limit.getD 0) [])
  else if packet.type.getD 0 = 29 then
    let req := packet.groupCityRequest.getD {}
    some (.findByCondition (ascii "service") (ascii "group_talk")
      (WorkerCaches.cityCondition (req.city.getD [])) (req.start.getD 0) (req.limit.getD 0) [])
  else none

/-- The answer to a packet: its type is the next one, and it names the same client. -/
structure AnsweredBy (packet answer : ServicePacket) : Prop where
  type : answer.type = some (packet.type.getD 0 + 1)
  cid  : answer.responseCid = some packet.requestCid

end ServicePacket

/-- The two inner tasks, each behind the responser that unwraps its requests. -/
inductive PacketHandler where
  /-- `service_package_responser`, behind `server_service_responser` -/
  | servicePackage
  /-- `python_func_service_responser`, behind `group_service_request_responser` -/
  | pythonFunc
deriving DecidableEq, Repr

namespace PacketHandler

def responser : PacketHandler → Responser
  | servicePackage => .serverService
  | pythonFunc     => .pythonService

def parser (proto : Proto) (up : Upstream) (w : WorkerCaches) :
    PacketHandler → Bytes → Handler (ServiceResponseResult × Bytes)
  | servicePackage => ServicePackageResponser.parser proto up w
  | pythonFunc     => PythonFuncServiceResponser.parser proto up

def serves : PacketHandler → List CInt
  | servicePackage => [21, 23, 25, 27, 29]
  | pythonFunc     => [31]

end PacketHandler

section

variable (proto : Proto) (up : Upstream) (w : WorkerCaches) (handler : PacketHandler)

/-- The payload `p` was handled, with `out` as the answer. -/
def ProperlyHandled (p out : Bytes) : Prop :=
  ∃ packet, proto.packet.parse p = some packet ∧ packet.type.getD 0 ∈ handler.serves ∧
    (∀ q, packet.lookup = some q → ∃ client json,
      (handler.parser proto up w p).calls = [.store client q] ∧ up.store client q = some (json, [])) ∧
    ∃ answer, proto.packet.parse out = some answer ∧ packet.AnsweredBy answer

/-- If the responser writes a response of status 0, its payload answers the payload of the request. -/
def StatusZeroMeansHandled (data p : Bytes) : Prop :=
  ∀ parsed srp, handler.responser.parser proto (w.backends proto up) data = some parsed →
    proto.response.parse parsed.response = some srp → srp.status = some 0 →
    ∃ out, srp.payload = some out ∧ ProperlyHandled proto up w handler p out

/-- The payload is a packet of a type the handler serves, and a group request finds a mongo client. -/
def Servable (p : Bytes) : Prop :=
  ∃ packet, proto.packet.parse p = some packet ∧ packet.type.getD 0 ∈ handler.serves ∧
    (packet.lookup ≠ none → w.mongoClientCache ≠ none)

end

section StatusZero

variable {proto : Proto} {up : Upstream} {w : WorkerCaches} {handler : PacketHandler} {p data : Bytes}
  {packet : ServicePacket}

/-! ## What the tasks end with -/

/-- Every result is synchronous, with status `0` or `-1`. -/
theorem result_cases {res : ServiceResponseResult} {out : Bytes}
    (h : (handler.parser proto up w p).outcome = .ok (res, out)) : ∃ status, res = resultOf status := by
  cases handler with
  | servicePackage =>
      change (ServicePackageResponser.parser proto up w p).outcome = _ at h
      unfold ServicePackageResponser.parser at h
      cases hparse : proto.packet.parse p with
      | none =>
          rw [hparse] at h
          cases h
          exact ⟨true, rfl⟩
      | some packet =>
          rw [hparse] at h
          obtain ⟨_, _, h⟩ := Traced.outcome_bind_eq_ok h
          obtain ⟨⟨status, _⟩, _, h⟩ := Traced.outcome_bind_eq_ok h
          cases h
          exact ⟨status, rfl⟩
  | pythonFunc =>
      change (PythonFuncServiceResponser.parser proto up p).outcome = _ at h
      unfold PythonFuncServiceResponser.parser at h
      cases hparse : proto.packet.parse p with
      | none =>
          rw [hparse] at h
          cases h
          exact ⟨true, rfl⟩
      | some packet =>
          rw [hparse] at h
          simp only at h
          split at h
          · cases h
            exact ⟨true, rfl⟩
          · obtain ⟨_, _, h⟩ := Traced.outcome_bind_eq_ok h
            cases h
            exact ⟨true, rfl⟩

variable (up) in
/-- A packet of one of the three types sent on by HTTP is answered, whatever becomes of the transfer. -/
theorem overHttp_answers (ht : packet.type.getD 0 ∈ [(21 : CInt), 23, 25]) :
    ∃ answer, (ServicePackageResponser.overHttp up packet).outcome = .ok answer ∧
      packet.AnsweredBy answer := by
  simp only [List.mem_cons, List.not_mem_nil, or_false] at ht
  unfold ServicePackageResponser.overHttp
  rcases ht with ht | ht | ht
  · rw [ht]
    exact ⟨_, rfl, by rw [ht]; rfl, by rw [ServicePacket.requestCid, ht]; rfl⟩
  · rw [ht]
    exact ⟨_, rfl, by rw [ht]; rfl, by rw [ServicePacket.requestCid, ht]; rfl⟩
  · rw [ht]
    exact ⟨_, rfl, by rw [ht]; rfl, by rw [ServicePacket.requestCid, ht]; rfl⟩

theorem lookup_eq_none (h27 : packet.type.getD 0 ≠ 27) (h29 : packet.type.getD 0 ≠ 29) :
    packet.lookup = none := by
  rw [ServicePacket.lookup, if_neg h27, if_neg h29]

theorem lookup_type {q : StoreQuery} (h : packet.lookup = some q) :
    packet.type.getD 0 = 27 ∨ packet.type.getD 0 = 29 := by
  by_contra hne
  rw [lookup_eq_none (fun h => hne (Or.inl h)) (fun h => hne (Or.inr h))] at h
  cases h

/-- The interpreter's packets ask nothing of the store. -/
theorem lookup_python (ht : packet.type.getD 0 ∈ PacketHandler.pythonFunc.serves) : packet.lookup = none := by
  rw [ServicePacket.lookup, List.mem_singleton.mp ht]
  rfl

theorem nearAnswer_answers (ht : packet.type.getD 0 = 27) (answer : Bytes × Bytes) :
    (nearAnswer ((packet.groupLbsNearRequest.getD {}).cid.getD []) answer).1 = answer.2.isEmpty ∧
    packet.AnsweredBy (nearAnswer ((packet.groupLbsNearRequest.getD {}).cid.getD []) answer).2 := by
  have hcid : packet.requestCid = (packet.groupLbsNearRequest.getD {}).cid.getD [] := by
    rw [ServicePacket.requestCid, ht]
    rfl
  obtain ⟨json, error⟩ := answer
  cases error with
  | nil => exact ⟨rfl, by rw [ht]; rfl, by rw [hcid]; rfl⟩
  | cons b bs => exact ⟨rfl, by rw [ht]; rfl, by rw [hcid]; rfl⟩

theorem cityAnswer_answers (ht : packet.type.getD 0 = 29) (answer : Bytes × Bytes) :
    (cityAnswer ((packet.groupCityRequest.getD {}).cid.getD []) answer).1 = answer.2.isEmpty ∧
    packet.AnsweredBy (cityAnswer ((packet.groupCityRequest.getD {}).cid.getD []) answer).2 := by
  have hcid : packet.requestCid = (packet.groupCityRequest.getD {}).cid.getD [] := by
    rw [ServicePacket.requestCid, ht]
    rfl
  obtain ⟨json, error⟩ := answer
  cases error with
  | nil => exact ⟨rfl, by rw [ht]; rfl, by rw [hcid]; rfl⟩
  | cons b bs => exact ⟨rfl, by rw [ht]; rfl, by rw [hcid]; rfl⟩

variable (up w) in
/-- **A group request is one query.** The status is whether it left an error; the packet answers either way. -/
theorem parser_lookup {q : StoreQuery} (hparse : proto.packet.parse p = some packet)
    (h : packet.lookup = some q) :
    ∃ finish : Bytes × Bytes → Bool × ServicePacket,
      ServicePackageResponser.parser proto up w p = (w.query up q >>= fun answer =>
        pure (resultOf (finish answer).1, proto.packet.serialize (finish answer).2)) ∧
      ∀ answer, (finish answer).1 = answer.2.isEmpty ∧ packet.AnsweredBy (finish answer).2 := by
  rw [ServicePackageResponser.parser_store hparse (lookup_type h)]
  rcases lookup_type h with ht | ht
  · refine ⟨nearAnswer _, ?_, nearAnswer_answers ht⟩
    rw [ServicePacket.lookup, if_pos ht] at h
    cases h
    rw [ServicePackageResponser.overStore, if_pos ht]
    exact Traced.bind_pure_bind _ _ _
  · refine ⟨cityAnswer _, ?_, cityAnswer_answers ht⟩
    rw [ServicePacket.lookup, ht] at h
    cases h
    rw [ServicePackageResponser.overStore, ht]
    exact Traced.bind_pure_bind _ _ _

variable (up) in
/-- Without a client a group request ends with status `0`, and nothing was asked. -/
theorem parser_lookup_unset {q : StoreQuery} (hparse : proto.packet.parse p = some packet)
    (h : packet.lookup = some q) (hw : w.mongoClientCache = none) :
    (∃ out, (ServicePackageResponser.parser proto up w p).outcome = .ok (.fresh, out)) ∧
    (ServicePackageResponser.parser proto up w p).calls = [] := by
  obtain ⟨finish, heq, hfinish⟩ := parser_lookup up w hparse h
  rw [heq, WorkerCaches.query_unset hw, Traced.bind_pure_left]
  rw [(hfinish (WorkerCaches.connectionError, [])).1]
  exact ⟨⟨_, rfl⟩, rfl⟩

/-- With one, status `0` means that the query was made and left no error. -/
theorem parser_lookup_set {q : StoreQuery} (hparse : proto.packet.parse p = some packet)
    (h : packet.lookup = some q) {client : MongoClient} (hw : w.mongoClientCache = some client) {out : Bytes}
    (hout : (ServicePackageResponser.parser proto up w p).outcome = .ok (.fresh, out)) :
    ∃ json, up.store client q = some (json, []) ∧
      (ServicePackageResponser.parser proto up w p).calls = [.store client q] ∧
      ∃ answer, out = proto.packet.serialize answer ∧ packet.AnsweredBy answer := by
  obtain ⟨finish, heq, hfinish⟩ := parser_lookup up w hparse h
  rw [heq, WorkerCaches.query_set hw] at hout ⊢
  obtain ⟨⟨json, error⟩, hcall, hpure⟩ := Traced.outcome_bind_eq_ok hout
  obtain ⟨hstatus, hanswers⟩ := hfinish (json, error)
  rw [Traced.outcome_pure, hstatus] at hpure
  -- an error text would have made the status `-1`
  cases error with
  | cons b bs => cases hpure
  | nil =>
      cases hpure
      have hstore : up.store client q = some (json, []) := by
        rw [Traced.outcome_call] at hcall
        cases hs : up.store client q with
        | none =>
            rw [hs] at hcall
            cases hcall
        | some answer =>
            rw [hs] at hcall
            cases hcall
            rfl
      exact ⟨json, hstore, Traced.calls_bind_ok hcall _, _, rfl, hanswers⟩

/-! ## The envelope around them -/

theorem handler_parses (data : Bytes) :
    handler.responser.parser proto (w.backends proto up) data
      = envelopeParser proto (innerTaskOf (handler.parser proto up w)) data := by
  cases handler with
  | servicePackage => rfl
  | pythonFunc => rfl

/-- The reply has status `0` exactly when the task ended so, and then it carries what the task wrote. -/
theorem statusZero_iff_outcome {sr : ServiceRequest} (hparse : proto.request.parse data = some sr)
    (htype : sr.serviceType = some serverServiceType) (hp : sr.payload = some p) :
    StatusZeroMeansHandled proto up w handler data p ↔
      ∀ out, (handler.parser proto up w p).outcome = .ok (.fresh, out) →
        ProperlyHandled proto up w handler p out := by
  constructor
  · intro h out hout
    have hhandled : Handled proto (innerTaskOf (handler.parser proto up w)) data sr 0 out := by
      refine ⟨hparse, htype, p, hp, ?_⟩
      rw [innerTaskOf, hout]
      rfl
    obtain ⟨srp, hsrp, _, _, _, hpayload, hstatus⟩ := hhandled.answers
    obtain ⟨out', hout', hproper⟩ :=
      h _ srp ((handler_parses data).trans hhandled.envelopeParser_eq) hsrp hstatus
    rw [hpayload] at hout'
    cases hout'
    exact hproper
  · intro h parsed srp hparsed hsrp hstatus
    rw [handler_parses] at hparsed
    cases hout : (handler.parser proto up w p).outcome with
    | error e =>
        -- the task threw, and there is no response
        rw [envelopeParser] at hparsed
        simp only [hparse, htype, hp, innerTaskOf, hout, Option.getD_some, Option.isSome_some, if_true,
          Except.toOption] at hparsed
        cases hparsed
    | ok result =>
        obtain ⟨res, out⟩ := result
        obtain ⟨status, rfl⟩ := result_cases hout
        have hhandled : Handled proto (innerTaskOf (handler.parser proto up w)) data sr
            (resultOf status).status out := by
          refine ⟨hparse, htype, p, hp, ?_⟩
          rw [innerTaskOf, hout]
          rfl
        rw [hhandled.envelopeParser_eq] at hparsed
        cases hparsed
        cases status with
        | false =>
            -- nothing is wrapped, and nothing does not parse
            change proto.response.parse [] = some srp at hsrp
            rw [proto.response.parse_nil rfl] at hsrp
            cases hsrp
        | true =>
            obtain ⟨srp', hsrp', _, _, _, hpayload, _⟩ := hhandled.answers
            change proto.response.parse (proto.response.serialize (envelope sr (resultOf true).status out))
              = some srp at hsrp
            rw [hsrp'] at hsrp
            cases hsrp
            exact ⟨out, hpayload, h out hout⟩

/-! ## When the status can be believed -/

variable (up w) in
/-- A payload nobody serves ends with status `0` all the same. -/
theorem unserved_fresh (h : ∀ packet, proto.packet.parse p = some packet →
    packet.type.getD 0 ∉ handler.serves) :
    ∃ out, (handler.parser proto up w p).outcome = .ok (.fresh, out) := by
  cases hparse : proto.packet.parse p with
  | none =>
      cases handler with
      | servicePackage =>
          show ∃ out, (ServicePackageResponser.parser proto up w p).outcome = _
          rw [ServicePackageResponser.parser_unparsable hparse]
          exact ⟨[], rfl⟩
      | pythonFunc =>
          show ∃ out, (PythonFuncServiceResponser.parser proto up p).outcome = _
          rw [PythonFuncServiceResponser.parser, hparse]
          exact ⟨[], rfl⟩
  | some packet =>
      have hserves := h packet hparse
      cases handler with
      | servicePackage =>
          simp only [PacketHandler.serves, List.mem_cons, List.not_mem_nil, or_false, not_or] at hserves
          obtain ⟨h21, h23, h25, h27, h29⟩ := hserves
          show ∃ out, (ServicePackageResponser.parser proto up w p).outcome = _
          rw [ServicePackageResponser.parser_http hparse h27 h29, ServicePackageResponser.overHttp, if_neg h21,
            if_neg h23, if_neg h25]
          exact ⟨_, rfl⟩
      | pythonFunc =>
          have h31 : packet.type.getD 0 ≠ 31 := fun he => hserves (List.mem_singleton.mpr he)
          show ∃ out, (PythonFuncServiceResponser.parser proto up p).outcome = _
          rw [PythonFuncServiceResponser.parser, hparse]
          simp only [if_pos h31]
          exact ⟨[], rfl⟩

/-- A packet that is served without the store is answered. -/
theorem served_answers (hparse : proto.packet.parse p = some packet)
    (hserves : packet.type.getD 0 ∈ handler.serves) (hlookup : packet.lookup = none) {out : Bytes}
    (hout : (handler.parser proto up w p).outcome = .ok (.fresh, out)) :
    ∃ answer, out = proto.packet.serialize answer ∧ packet.AnsweredBy answer := by
  cases handler with
  | servicePackage =>
      have hne : packet.type.getD 0 ≠ 27 ∧ packet.type.getD 0 ≠ 29 := by
        constructor
        · intro ht
          rw [ServicePacket.lookup, if_pos ht] at hlookup
          cases hlookup
        · intro ht
          rw [ServicePacket.lookup, ht] at hlookup
          cases hlookup
      have hhttp : packet.type.getD 0 ∈ [(21 : CInt), 23, 25] := by
        simp only [PacketHandler.serves, List.mem_cons, List.not_mem_nil, or_false] at hserves ⊢
        rcases hserves with h | h | h | h | h
        · exact Or.inl h
        · exact Or.inr (Or.inl h)
        · exact Or.inr (Or.inr h)
        · exact absurd h hne.1
        · exact absurd h hne.2
      obtain ⟨answer, hanswer, hanswers⟩ := overHttp_answers up hhttp
      change (ServicePackageResponser.parser proto up w p).outcome = _ at hout
      rw [ServicePackageResponser.parser_http hparse hne.1 hne.2, Traced.outcome_bind_ok hanswer] at hout
      cases hout
      exact ⟨answer, rfl, hanswers⟩
  | pythonFunc =>
      have ht : packet.type.getD 0 = 31 := List.mem_singleton.mp hserves
      change (PythonFuncServiceResponser.parser proto up p).outcome = _ at hout
      rw [PythonFuncServiceResponser.parser, hparse] at hout
      simp only [if_neg (not_not_intro ht)] at hout
      obtain ⟨answer, hcall, hpure⟩ := Traced.outcome_bind_eq_ok hout
      cases hpure
      refine ⟨_, rfl, by rw [ht]; rfl, ?_⟩
      rw [ServicePacket.requestCid, ht]
      -- whether the call threw or not
      cases answer with
      | ok json => rfl
      | error what => rfl

theorem properlyHandled_of_servable (h : Servable proto w handler p) {out : Bytes}
    (hout : (handler.parser proto up w p).outcome = .ok (.fresh, out)) :
    ProperlyHandled proto up w handler p out := by
  obtain ⟨packet, hparse, hserves, hclient⟩ := h
  have hanswer : ∀ answer, packet.AnsweredBy answer →
      proto.packet.parse (proto.packet.serialize answer) = some answer := by
    intro answer ha
    refine proto.packet.parse_of_initialized ?_
    show answer.type.isSome = true
    rw [ha.type]
    rfl
  refine ⟨packet, hparse, hserves, ?_⟩
  cases hlookup : packet.lookup with
  | none =>
      obtain ⟨answer, rfl, ha⟩ := served_answers hparse hserves hlookup hout
      exact ⟨fun _ hq => (by cases hq), answer, hanswer answer ha, ha⟩
  | some q =>
      cases handler with
      | pythonFunc =>
          rw [lookup_python hserves] at hlookup
          cases hlookup
      | servicePackage =>
          cases hw : w.mongoClientCache with
          | none => exact absurd hw (hclient (by rw [hlookup]; exact Option.some_ne_none q))
          | some client =>
              obtain ⟨json, hstore, hcalls, answer, rfl, ha⟩ := parser_lookup_set hparse hlookup hw hout
              refine ⟨?_, answer, hanswer answer ha, ha⟩
              intro q' hq'
              cases hq'
              exact ⟨client, json, hcalls, hstore⟩

/-- A status `0` that nothing backs gives the payload away: every way not to be servable has one. -/
theorem servable_of_outcome (h : ∀ out, (handler.parser proto up w p).outcome = .ok (.fresh, out) →
    ProperlyHandled proto up w handler p out) : Servable proto w handler p := by
  by_cases hserved : ∃ packet, proto.packet.parse p = some packet ∧ packet.type.getD 0 ∈ handler.serves
  · obtain ⟨packet, hpacket, hserves⟩ := hserved
    refine ⟨packet, hpacket, hserves, ?_⟩
    intro hlookup hw
    obtain ⟨q, hq⟩ := Option.ne_none_iff_exists'.mp hlookup
    cases handler with
    | pythonFunc => exact absurd (lookup_python hserves) hlookup
    | servicePackage =>
        -- the store was never asked
        obtain ⟨⟨out, hout⟩, hcalls⟩ := parser_lookup_unset up hpacket hq hw
        obtain ⟨packet', hpacket', _, hran, _⟩ := h out hout
        rw [hpacket] at hpacket'
        cases hpacket'
        obtain ⟨client, json, hasked, _⟩ := hran q hq
        change (ServicePackageResponser.parser proto up w p).calls = _ at hasked
        rw [hcalls] at hasked
        cases hasked
  · have hnone : ∀ packet, proto.packet.parse p = some packet → packet.type.getD 0 ∉ handler.serves :=
      fun packet hpacket hserves => hserved ⟨packet, hpacket, hserves⟩
    obtain ⟨out, hout⟩ := unserved_fresh up w hnone
    obtain ⟨packet, hpacket, hserves, _⟩ := h out hout
    exact absurd hserves (hnone packet hpacket)

end StatusZero

/-- **When status 0 means handled.** For every request of the served type and every payload, under either
    handler: exactly when the payload is a packet the handler serves and a group request finds a mongo client. -/
theorem status_zero_iff (proto : Proto) (up : Upstream) (w : WorkerCaches) (handler : PacketHandler)
    (data p : Bytes) (sr : ServiceRequest) (hparse : proto.request.parse data = some sr)
    (htype : sr.serviceType = some serverServiceType) (hp : sr.payload = some p) :
    StatusZeroMeansHandled proto up w handler data p ↔ Servable proto w handler p := by
  rw [statusZero_iff_outcome hparse htype hp]
  constructor
  · exact servable_of_outcome
  · exact fun h out hout => properlyHandled_of_servable h hout

/-! ### A near request, with and without a client -/

def nearPacket : ServicePacket :=
  { type := some 27, groupLbsNearRequest := some { cid := some (ascii "7") } }

theorem nearPacket_parses :
    Proto.wire.packet.parse (Proto.wire.packet.serialize nearPacket) = some nearPacket :=
  Proto.wire.packet.parse_of_initialized rfl

theorem status_zero_near :
    StatusZeroMeansHandled Proto.wire silentUpstream ⟨none, some ⟨[(ascii "10.0.0.9", 27017)]⟩⟩ .servicePackage
      (Proto.wire.request.serialize nearRequest) (Proto.wire.packet.serialize nearPacket) :=
  (status_zero_iff _ _ _ _ _ _ nearRequest (Proto.wire.request.parse_of_initialized rfl) rfl rfl).mpr
    ⟨nearPacket, nearPacket_parses, by decide, fun _ h => by cases h⟩

/-- The worker has no mongo client, and the reply says that all went well. -/
theorem status_zero_without_client :
    ¬ StatusZeroMeansHandled Proto.wire silentUpstream ⟨none, none⟩ .servicePackage
      (Proto.wire.request.serialize nearRequest) (Proto.wire.packet.serialize nearPacket) := by
  intro h
  have hp : nearRequest.payload = some (Proto.wire.packet.serialize nearPacket) := rfl
  have hparse : Proto.wire.request.parse (Proto.wire.request.serialize nearRequest) = some nearRequest :=
    Proto.wire.request.parse_of_initialized rfl
  have hout := (statusZero_iff_outcome hparse rfl hp).mp h
  obtain ⟨packet, hpacket, _, hclient⟩ := servable_of_outcome hout
  rw [nearPacket_parses] at hpacket
  cases hpacket
  exact hclient (by decide) rfl

end BServer
