import Mathlib.Data.List.TakeWhile
import BServer.Proto.StyledJson
import BServer.Task.Outgoing
import BServer.Task.Reply

/-!
# `Task.PublicService` — a request to the robot, and the push it comes back as

A packet of type 25 names a client, a service and some data. The server posts the three to the robot as JSON, and
answers the requester with what the robot said. The robot sends the same JSON to a server under command 6666 when
it wants the client to hear of it, and that server pushes the three to the client's sessions.

One class, `service_request_json_data`, writes the JSON at the one end and reads it at the other. What it reads is
what it wrote (`toServiceRequest_reads_back`), for fields without a zero byte; so whatever reaches the robot as one
post reaches each session of the client unchanged, unless one of the three fields is empty: then nobody is told
(`public_service_comes_back`).
-/

namespace BServer

open Bytes

/-- A library writes texts that a C function takes whole: they are not empty, and have no zero byte. -/
structure JsonCpp.WritesText (lib : JsonCpp) : Prop where
  ne_nil  : ∀ v s, lib.write v = some s → s ≠ []
  nonzero : ∀ v s, v.Plain → lib.write v = some s → 0 ∉ s

/-! ## The JSON of a request -/

/-- The value `to_service_request` writes. -/
def serviceRequestJson (cid serviceId data : Bytes) : Json :=
  .object [(ascii "cid", .string cid), (ascii "data", .string data), (ascii "service_id", .string serviceId)]

section Json

variable {cid serviceId data : Bytes}

theorem serviceRequestJson_plain (hcid : 0 ∉ cid) (hserviceId : 0 ∉ serviceId) (hdata : 0 ∉ data) :
    (serviceRequestJson cid serviceId data).Plain := by
  refine .object ?_ ?_ ?_
  · show [ascii "cid", ascii "data", ascii "service_id"].Pairwise (· < ·)
    decide
  · show ∀ k ∈ [ascii "cid", ascii "data", ascii "service_id"], 0 ∉ k
    decide
  · intro m hm
    simp only [List.mem_cons, List.not_mem_nil, or_false] at hm
    rcases hm with rfl | rfl | rfl
    · exact .string hcid
    · exact .string hdata
    · exact .string hserviceId

/-- The three accessors answer what the value was made of. -/
theorem serviceRequestJson_fields (cid serviceId data : Bytes) :
    ServiceRequestJsonData.cid ⟨serviceRequestJson cid serviceId data⟩ = some cid ∧
      ServiceRequestJsonData.serviceId ⟨serviceRequestJson cid serviceId data⟩ = some serviceId ∧
      ServiceRequestJsonData.data ⟨serviceRequestJson cid serviceId data⟩ = some data := ⟨rfl, rfl, rfl⟩

/-- **What `to_service_request` writes is read back.** -/
theorem toServiceRequest_reads_back {lib : JsonCpp} (hlib : lib.Faithful) (hcid : 0 ∉ cid)
    (hserviceId : 0 ∉ serviceId) (hdata : 0 ∉ data) :
    ∃ text, lib.write (serviceRequestJson cid serviceId data) = some text ∧
      JsonParser.decode lib text = some (serviceRequestJson cid serviceId data) := by
  have hplain := serviceRequestJson_plain hcid hserviceId hdata
  obtain ⟨text, hwrite, _⟩ := hlib.parse_write _ hplain
  have hdecode := JsonParser.decode_encode hlib hplain
  rw [JsonParser.encode, show lib.write (.object _) = some text from hwrite] at hdecode
  exact ⟨text, hwrite, hdecode⟩

end Json

section Messages

variable {proto : Proto} {up : Upstream} {w : WorkerCaches} {t : Task} {sr : ServiceRequest} {p : Bytes}
  {packet : ServicePacket}

/-! ## A request -/

/-- A request under command 200, with the packet in it. -/
structure Carries (proto : Proto) (t : Task) (sr : ServiceRequest) (packet : ServicePacket) : Prop where
  cmd     : t.head.cmd = 200
  parsed  : proto.request.parse t.data = some sr
  type    : sr.serviceType = some serverServiceType
  payload : ∃ p, sr.payload = some p ∧ proto.packet.parse p = some packet

/-- All that a request asks of the outside is what its packet asks. -/
theorem calls_request (hcmd : t.head.cmd = 200) (hparse : proto.request.parse t.data = some sr)
    (htype : sr.serviceType = some serverServiceType) (hp : sr.payload = some p) :
    (w.doWork proto up t).calls = (ServicePackageResponser.parser proto up w p).calls := by
  have hpick : pickResponser t.head.cmd = some .serverService := by
    rw [hcmd]
    rfl
  have henvelope : (Responser.serverService.handle proto up w t.data).calls
      = (ServicePackageResponser.parser proto up w p).calls := by
    unfold Responser.handle envelopeHandler
    simp only [hparse, htype, hp, Option.getD_some, Option.isSome_some, if_true]
    exact Traced.calls_bind_silent _ fun _ => rfl
  unfold WorkerCaches.doWork
  simp only [hpick]
  rw [calls_caught, ← henvelope]
  exact Traced.calls_bind_silent _ fun _ => rfl

/-- A worker replies to a request whatever its caches are: no pointer is followed for it. -/
theorem outcome_request (hcmd : t.head.cmd = 200) {status : CInt} {out : Bytes}
    (h : Handled proto (innerTaskOf (ServicePackageResponser.parser proto up w)) t.data sr status out) :
    (w.doWork proto up t).outcome = .ok [.fixToServer t.id (frame { t.head with cmd := 201 }
      (if status = 0 then proto.response.serialize (envelope sr status out) else []))] := by
  have hpick : pickResponser t.head.cmd = some .serverService := by
    rw [hcmd]
    rfl
  have hnopush : ¬ AsksForPush up t := by
    rintro ⟨h6666, _⟩
    rw [hcmd] at h6666
    cases h6666
  rw [WorkerCaches.doWork_outcome (avoids_doWork_iff.mpr (Or.inr hnopush)),
    h.doWork_eq (b := w.backends proto up) hpick rfl t.id, hcmd]
  rfl

/-- The fields of a public service request. -/
structure Asks (packet : ServicePacket) (cid serviceId data : Bytes) : Prop where
  type      : packet.type = some 25
  cid       : (packet.publicServiceRequest.getD {}).cid.getD [] = cid
  serviceId : (packet.publicServiceRequest.getD {}).serviceId.getD [] = serviceId
  data      : (packet.publicServiceRequest.getD {}).data.getD [] = data

/-- A text posted to the robot. -/
def robotPost (up : Upstream) (text : Bytes) : HttpCall := .post (cString up.robotDomain) jsonHeaders text

/-- The packet that answers a client, with what the robot said to the post. -/
def publicAnswer (up : Upstream) (cid serviceId text : Bytes) : ServicePacket :=
  { type := some 26
    publicServiceResponse := some { cid := some cid, serviceId := some serviceId
                                    data := some (up.http (robotPost up text)), time := some up.totalMilliseconds } }

/-- A public service request is one post, and the answer to it. -/
theorem parser_public {cid serviceId data text : Bytes} (hpacket : proto.packet.parse p = some packet)
    (hasks : Asks packet cid serviceId data)
    (htext : ServicePackageResponser.toServiceRequest up cid serviceId data = text) (hne : text ≠ [])
    (hnul : 0 ∉ text) :
    ServicePackageResponser.parser proto up w p
      = ⟨[.http (robotPost up text)], .ok (.fresh, proto.packet.serialize (publicAnswer up cid serviceId text))⟩ := by
  obtain ⟨h25, rfl, rfl, rfl⟩ := hasks
  have htype : packet.type.getD 0 = 25 := by
    rw [h25]
    rfl
  have htransfer : transfer up.robotDomain [] text = robotPost up text := by
    have hfull : text.isEmpty = false := by simpa using hne
    have hwhole : cString text = text := List.takeWhile_eq_self_iff.mpr fun b hb =>
      decide_eq_true fun h0 => hnul (h0 ▸ hb)
    simp [transfer, robotPost, hfull, hwhole]
  rw [ServicePackageResponser.parser_http hpacket (by rw [htype]; decide) (by rw [htype]; decide)]
  unfold ServicePackageResponser.overHttp
  rw [htype]
  simp only [ServicePackageResponser.doPublicServiceRequest, htext, htransfer]
  rfl

end Messages

/-! ## The push -/

/-- What a worker with a session cache makes of a push of three fields: a frame for each session of the client,
    unless a field is empty. -/
theorem outcome_push {proto : Proto} {up : Upstream} {w : WorkerCaches} {t : Task} {cid serviceId data : Bytes}
    (hcmd : t.head.cmd = 6666) (hread : up.readJson t.data = serviceRequestJson cid serviceId data)
    {cache : SessCache} (hcache : w.sessCache = some cache) {table : List (Bytes × Sess)}
    (htable : up.sessions cache cid = some table) :
    (w.doWork proto up t).outcome = .ok (if cid = [] ∨ serviceId = [] ∨ data = [] then []
      else table.map (pushTo proto up.uuid (proto.packet.serialize (pushedPacket cid serviceId data)))) := by
  have hset : w.sessCache ≠ none := by
    rw [hcache]
    exact Option.some_ne_none _
  rw [WorkerCaches.doWork_outcome (avoids_doWork_iff.mpr (Or.inl hset)), doWork_pushCommand hcmd,
    serverServiceResponseParser]
  have hfields := serviceRequestJson_fields cid serviceId data
  have hsessions : (w.backends proto up).getSession cid = some table := by
    show (w.getSession up cid).outcome.toOption = some table
    unfold WorkerCaches.getSession
    rw [hcache]
    show (orThrow (up.sessions cache cid)).toOption = some table
    rw [htable]
    rfl
  have hjson : (w.backends proto up).readJson t.data = serviceRequestJson cid serviceId data := hread
  simp only [hjson, hfields, Option.bind_some]
  by_cases hempty : cid = [] ∨ serviceId = [] ∨ data = []
  · have hany : (cid.isEmpty || serviceId.isEmpty || data.isEmpty) = true := by
      simpa [or_assoc] using hempty
    rw [if_pos hempty, if_pos hany]
    rfl
  · have hnone : (cid.isEmpty || serviceId.isEmpty || data.isEmpty) = false := by
      simpa [not_or, and_assoc] using hempty
    rw [if_neg hempty, hnone, hsessions]
    rfl

/-! ## Both ends -/

/-- **A public service request comes back.** A request with three fields without a zero byte leaves one post, and
    is answered with status 0 and what the robot said. When what was posted is sent to any worker as a push, it
    reads the three fields as they were, and each session of the client gets them, unless one of them is empty. -/
theorem public_service_comes_back (proto : Proto) (lib : JsonCpp) (up : Upstream) (w : WorkerCaches) (t : Task)
    (sr : ServiceRequest) (packet : ServicePacket) (cid serviceId data : Bytes) (hlib : lib.Faithful)
    (htext : lib.WritesText) (hwrite : up.writeJson = JsonParser.encode lib) (hcarries : Carries proto t sr packet)
    (hasks : Asks packet cid serviceId data) (hnul : 0 ∉ cid ∧ 0 ∉ serviceId ∧ 0 ∉ data) :
    ∃ text answer : Bytes,
      (w.doWork proto up t).calls = [.http (robotPost up text)] ∧
      (w.doWork proto up t).outcome = .ok [.fixToServer t.id (frame { t.head with cmd := 201 } answer)] ∧
      (∃ out, Answers proto sr 0 out answer ∧ proto.packet.parse out = some (publicAnswer up cid serviceId text)) ∧
      ∀ (back : Upstream) (w' : WorkerCaches) (t' : Task) (cache : SessCache) (table : List (Bytes × Sess)),
        (∀ s v, JsonParser.decode lib s = some v → back.readJson s = v) → t'.head.cmd = 6666 → t'.data = text →
        w'.sessCache = some cache → back.sessions cache cid = some table →
        (w'.doWork proto back t').outcome = .ok (if cid = [] ∨ serviceId = [] ∨ data = [] then []
          else table.map (pushTo proto back.uuid (proto.packet.serialize (pushedPacket cid serviceId data)))) := by
  obtain ⟨hnulCid, hnulService, hnulData⟩ := hnul
  obtain ⟨hcmd200, hparsed, htype, p, hpayload, hpacket⟩ := hcarries
  obtain ⟨text, hwritten, hdecoded⟩ := toServiceRequest_reads_back hlib hnulCid hnulService hnulData
  have hposted : ServicePackageResponser.toServiceRequest up cid serviceId data = text := by
    rw [ServicePackageResponser.toServiceRequest, hwrite, JsonParser.encode]
    show (lib.write (serviceRequestJson cid serviceId data)).getD [] = text
    rw [hwritten]
    rfl
  have hplain := serviceRequestJson_plain hnulCid hnulService hnulData
  have htask := parser_public (w := w) hpacket hasks hposted (htext.ne_nil _ _ hwritten)
    (htext.nonzero _ _ hplain hwritten)
  have hhandled : Handled proto (innerTaskOf (ServicePackageResponser.parser proto up w)) t.data sr 0
      (proto.packet.serialize (publicAnswer up cid serviceId text)) := by
    refine ⟨hparsed, htype, p, hpayload, ?_⟩
    rw [innerTaskOf, htask]
    rfl
  refine ⟨text, _, ?_, outcome_request hcmd200 hhandled, ⟨_, hhandled.answers, ?_⟩, ?_⟩
  · rw [calls_request hcmd200 hparsed htype hpayload, htask]
  · exact proto.packet.parse_of_initialized rfl
  · intro back w' t' cache table hread hcmd hsent hcache htable
    exact outcome_push hcmd (hread _ _ (hsent ▸ hdecoded)) hcache htable

/-! ### One request, to a client with one session -/

/-- The packet a client sends. -/
def publicPacket : ServicePacket :=
  { type := some 25
    publicServiceRequest := some
      { cid := some (ascii "7"), serviceId := some (ascii "robot"), data := some (ascii "hi") } }

def publicServiceRequest : ServiceRequest :=
  { sessid := some (ascii "s1"), serviceType := some 600, sn := some (ascii "n1")
    payload := some (Proto.wire.packet.serialize publicPacket) }

/-- A world that writes and reads JSON. -/
def jsonUpstream (table : List (Bytes × Sess)) : Upstream :=
  { silentUpstream with
    writeJson := JsonParser.encode StyledJson.library
    readJson := fun s => (JsonParser.decode StyledJson.library s).getD .null
    sessions := fun _ _ => some table }

theorem library_writesText : StyledJson.library.WritesText where
  ne_nil v s h := by
    cases h
    exact List.append_ne_nil_of_right_ne_nil _ (List.cons_ne_nil _ _)
  nonzero v s hv h := by
    cases h
    rw [List.mem_append, not_or]
    exact ⟨StyledJson.styled_nonzero hv 0, by decide⟩

theorem public_service_comes_back_one : ∃ text answer : Bytes,
    (WorkerCaches.doWork Proto.wire (jsonUpstream []) ⟨none, none⟩
      ⟨Proto.wire.request.serialize publicServiceRequest, ⟨0, 0, 200⟩, []⟩).outcome
        = .ok [.fixToServer [] (frame ⟨0, 0, 201⟩ answer)] ∧
    (WorkerCaches.doWork Proto.wire (jsonUpstream [(ascii "s2", ⟨ascii "10.0.0.1:9000"⟩)]) ⟨some ⟨[], []⟩, none⟩
      ⟨text, ⟨0, 0, 6666⟩, []⟩).outcome
        = .ok [pushTo Proto.wire [] (Proto.wire.packet.serialize (pushedPacket (ascii "7") (ascii "robot") (ascii "hi")))
            (ascii "s2", ⟨ascii "10.0.0.1:9000"⟩)] := by
  obtain ⟨text, answer, _, hreply, _, hpush⟩ := public_service_comes_back Proto.wire StyledJson.library
    (jsonUpstream []) ⟨none, none⟩ ⟨Proto.wire.request.serialize publicServiceRequest, ⟨0, 0, 200⟩, []⟩
    publicServiceRequest publicPacket (ascii "7") (ascii "robot") (ascii "hi") StyledJson.library_faithful
    library_writesText rfl
    ⟨rfl, Proto.wire.request.parse_of_initialized rfl, rfl, _, rfl, Proto.wire.packet.parse_of_initialized rfl⟩
    ⟨rfl, rfl, rfl, rfl⟩ ⟨by decide, by decide, by decide⟩
  refine ⟨text, answer, hreply, ?_⟩
  refine hpush (jsonUpstream [(ascii "s2", ⟨ascii "10.0.0.1:9000"⟩)]) ⟨some ⟨[], []⟩, none⟩ _ _ _ ?_ rfl rfl rfl rfl
  intro s v h
  show (JsonParser.decode StyledJson.library s).getD .null = v
  rw [h]
  rfl

end BServer
