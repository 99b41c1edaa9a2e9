import BServer.Net.Session
import BServer.Proto.Messages
import BServer.Proto.ServiceRequestJson
import BServer.Task.TaskBase

/-!
# `Task.Responser` — from a popped task to frames on sessions

`logic_deal_processing::do_work` picks a responser by command, lets it parse the body, and, unless the result
is asynchronous, lets it respond. A responser reaches sessions only by handing a frame to one of the three
`dispatch` helpers; what a run of `do_work` does is therefore a list of `Dispatch`es, carried out on the
registries by `Registries.perform`.

The envelope is the same for the three commands that answer a `ServiceRequest`: unwrap it, give the payload to
an inner task, wrap what the task made (`envelopeParser`). Which inner task it is, and what the task asks of
other machines, is not looked into here: `Backends` holds the outcomes.
-/

namespace BServer

open Bytes

/-! ## Dispatching -/

/-- A frame handed to one of the helpers of `task_responser`. -/
inductive Dispatch where
  /-- `dispatch_to_server`: any connection to a server -/
  | toServer (serverId : Bytes) (mf : MessageFormat)
  /-- `fix_dispatch_to_server`: the outbound session registered under an id -/
  | fixToServer (serverId : Bytes) (mf : MessageFormat)
  /-- `dispatch_to_client`: the inbound session registered under an id -/
  | toClient (serverId : Bytes) (mf : MessageFormat)
deriving DecidableEq

/-- A call of `session_base::write`. -/
abbrev SessionWrite := SessPtr × MessageFormat

namespace Registries

/-- `if(sb) sb->write(mf)`. -/
def writeTo (sb : Option SessPtr) (mf : MessageFormat) : List SessionWrite :=
  match sb with
  | some x => [(x, mf)]
  | none   => []

/-- The three helpers. Only `dispatch_to_server` draws a random number and may leave an empty list behind. -/
def dispatch (rand : Nat) (r : Registries) : Dispatch → List SessionWrite × Registries
  | .toServer serverId mf =>
      if !serverId.isEmpty then
        let out := r.peerMapClient.get serverId rand
        (writeTo out.1 mf, { r with peerMapClient := out.2 })
      else ([], r)
  | .fixToServer serverId mf =>
      if !serverId.isEmpty then (writeTo (r.peerMapClient.fixGet serverId) mf, r) else ([], r)
  | .toClient serverId mf =>
      if !serverId.isEmpty then (writeTo (r.peerMap.get serverId) mf, r) else ([], r)

/-- Dispatches in order; `rand n` is what `rand()` answers the `n`-th of them. -/
def perform (rand : Nat → Nat) (r : Registries) : List Dispatch → List SessionWrite × Registries
  | []      => ([], r)
  | d :: ds =>
      let out := r.dispatch (rand 0) d
      let next := perform (fun n => rand (n + 1)) out.2 ds
      (out.1 ++ next.1, next.2)

/-- One dispatch to a fixed id writes on the session bound there, if the id is not empty. -/
theorem perform_fixToServer (rand : Nat → Nat) (r : Registries) (id : Bytes) (mf : MessageFormat) :
    (r.perform rand [.fixToServer id mf]).1
      = if id = [] then [] else writeTo (r.peerMapClient.fixGet id) mf := by
  by_cases h : id = []
  · simp [perform, dispatch, h]
  · simp [perform, dispatch, h]

theorem writeTo_eq_singleton {sb : Option SessPtr} {mf mf' : MessageFormat} {x : SessPtr} :
    writeTo sb mf = [(x, mf')] ↔ sb = some x ∧ mf = mf' := by
  cases sb with
  | none => simp [writeTo]
  | some y => simp [writeTo]

end Registries

/-! ## Responsers -/

/-- `service_response_result`. -/
structure ServiceResponseResult where
  status : CInt
  async  : Bool
deriving DecidableEq, Repr

namespace ServiceResponseResult

def fresh : ServiceResponseResult := ⟨0, false⟩

def sync (r : ServiceResponseResult) : Bool := !r.async

end ServiceResponseResult

/-- The `parser` of an inner task built with a serial number, on a payload: its result and the packet it
    wrote; `none` when it threw. -/
abbrev InnerTask := Bytes → Bytes → Option (ServiceResponseResult × Bytes)

/-- `meet_you::Sess`. -/
structure Sess where
  serverAddr : Bytes
deriving DecidableEq

/-- What the responsers ask of the world outside, as it answers this time. -/
structure Backends where
  /-- `service_package_responser`, with its HTTP and mongo back ends -/
  servicePackage : InnerTask
  /-- `group_responser`, with its mongo back end -/
  group          : InnerTask
  /-- `python_func_service_responser`, with the embedded interpreter -/
  pythonFunc     : InnerTask
  /-- what `Json::Reader::parse` leaves in its output value -/
  readJson       : Bytes → Json
  /-- `session_task::get_session`, in map order; `none` without a session cache -/
  getSession     : Bytes → Option (List (Bytes × Sess))
  /-- the textual form of `uuid_generate` -/
  uuid           : Bytes

/-- What a `parser` returns: the result, the response it wrote, and the frames it dispatched itself. -/
structure Parsed where
  result     : ServiceResponseResult
  response   : Bytes
  dispatches : List Dispatch

/-- Which class `do_work` instantiates. -/
inductive Responser where
  | serverService
  | serverServiceResponse
  /-- `group_service_request_responser<group_responser>` -/
  | groupService
  /-- `group_service_request_responser<python_func_service_responser>` -/
  | pythonService
  | servicePackageBusy
deriving DecidableEq, Repr

/-- The service type of a request that this server answers. -/
def serverServiceType : CInt := 600

/-- The body of a reply frame is framed as it is, under a command of its own. -/
def frame (h : Head) (data : Bytes) : MessageFormat := MessageFormat.new.framed h data

section Parsers

variable (proto : Proto)

/-- The envelope of a reply whose inner task ended with `status` and wrote `packageResponse`. -/
def envelope (sr : ServiceRequest) (status : CInt) (packageResponse : Bytes) : ServiceResponse :=
  { sn := some (sr.sn.getD [])
    sessid := some (sr.sessid.getD [])
    serviceType := some (sr.serviceType.getD 0)
    status := some (if status = 0 then 0 else -1)
    payload := some packageResponse }

/-- The parser of the responsers that unwrap a `ServiceRequest`, for an inner task. Nothing is wrapped unless
    the task ended with status `0`, whatever the envelope would have done with another status. -/
def envelopeParser (task : InnerTask) (data : Bytes) : Option Parsed :=
  match proto.request.parse data with
  | none => some ⟨.fresh, [], []⟩
  | some sr =>
      if sr.serviceType.getD 0 = serverServiceType then
        if sr.payload.isSome then
          match task (sr.sn.getD []) (sr.payload.getD []) with
          | none => none
          | some (res, packageResponse) =>
              -- the source tests the status again inside, where it can only be `0`
              if res.status = 0 && res.sync then
                some ⟨res, proto.response.serialize (envelope sr res.status packageResponse), []⟩
              else some ⟨res, [], []⟩
        else some ⟨.fresh, [], []⟩
      else some ⟨.fresh, [], []⟩

/-- `server_service_responser::parser`. -/
def serverServiceParser (b : Backends) : Bytes → Option Parsed := envelopeParser proto b.servicePackage

/-- `group_service_request_responser<task_type>::parser`. -/
def groupServiceParser (task : InnerTask) : Bytes → Option Parsed := envelopeParser proto task

/-- The answer of a busy server. -/
def busyAnswer : Bytes := ascii "\x7b\"error\":\"system service in busy\", \"code\":1010\x7d"

/-- What `service_package_busy_responser` answers a packet with. The request it would have posted is only
    logged, and left out. -/
def busyPacket (packet : ServicePacket) : ServicePacket :=
  if packet.type.getD 0 = 21 then
    let rr := packet.replyRequest.getD {}
    { type := some 22
      replyResponse :=
        some { cid := some (rr.cid.getD []), type := some (rr.type.getD []), data := some busyAnswer } }
  else if packet.type.getD 0 = 23 then
    let ptr := packet.postTopicRequest.getD {}
    { type := some 24
      postTopicResponse :=
        some { cid := some (ptr.cid.getD []), type := some (ptr.type.getD []), data := some busyAnswer } }
  else {}

/-- `service_package_busy_responser::parser`: the body is read as a `ServicePacket`. -/
def busyParser (data : Bytes) : Option Parsed :=
  match proto.packet.parse data with
  | none => some ⟨.fresh, [], []⟩
  | some packet => some ⟨.fresh, proto.packet.serialize (busyPacket packet), []⟩

/-- The packet pushed to every session of a client. -/
def pushedPacket (cid serviceId data : Bytes) : ServicePacket :=
  { type := some 26
    publicServiceResponse := some { cid := some cid, serviceId := some serviceId, data := some data } }

/-- The response a push is wrapped in, with the members `server_service_response_responser::parser` sets. -/
def pushedResponse (sn payload sessid : Bytes) : ServiceResponse :=
  { sn := some sn, serviceType := some serverServiceType, payload := some payload, sessid := some sessid }

/-- One turn of the loop over the sessions. -/
def pushTo (sn payload : Bytes) (entry : Bytes × Sess) : Dispatch :=
  let out := proto.response.serialize (pushedResponse sn payload entry.1)
  .toServer (ascii "server:" ++ entry.2.serverAddr)
    (frame ⟨0, BitVec.ofNat 32 (messageHeadLength + out.length), 6667⟩ out)

/-- `server_service_response_responser::parser`. -/
def serverServiceResponseParser (b : Backends) (data : Bytes) : Option Parsed :=
  let res : ServiceResponseResult := ⟨0, true⟩
  let jsonData : ServiceRequestJsonData := ⟨b.readJson data⟩
  jsonData.cid.bind fun cid =>
  jsonData.serviceId.bind fun serviceId =>
  jsonData.data.bind fun responseData =>
    -- a member that is missing, or no string, reads as empty
    if cid.isEmpty || serviceId.isEmpty || responseData.isEmpty then some ⟨res, [], []⟩
    else
      let packetRes := proto.packet.serialize (pushedPacket cid serviceId responseData)
      (b.getSession cid).map fun sesss => ⟨res, [], sesss.map (pushTo proto b.uuid packetRes)⟩

namespace Responser

/-- The virtual `parser`. -/
def parser (b : Backends) : Responser → Bytes → Option Parsed
  | serverService         => serverServiceParser proto b
  | serverServiceResponse => serverServiceResponseParser proto b
  | groupService          => groupServiceParser proto b.group
  | pythonService         => groupServiceParser proto b.pythonFunc
  | servicePackageBusy    => busyParser proto

/-- The virtual `response`: the reply goes out under the next command, or nothing is done. -/
def response (id : Bytes) (h : Head) (data : Bytes) : Responser → List Dispatch
  | serverService | groupService | pythonService =>
      [.fixToServer id (frame { h with cmd := h.cmd + 1 } data)]
  | serverServiceResponse | servicePackageBusy => []

end Responser

/-- The choice by command in `do_work`. -/
def pickResponser (cmd : CInt) : Option Responser :=
  if cmd = 200 then some .serverService
  else if cmd = 6666 then some .serverServiceResponse
  else if cmd = 7818 then some .groupService
  else if cmd = 8000 then some .pythonService
  else if cmd = 1010 then some .servicePackageBusy
  else none

/-- `logic_deal_processing::do_work`. An exception out of `parser` is logged and ends the task. -/
def doWork (b : Backends) (id : Bytes) (h : Head) (data : Bytes) : List Dispatch :=
  match pickResponser h.cmd with
  | none => []
  | some responser =>
      match responser.parser proto b data with
      | none => []
      | some parsed =>
          if parsed.result.async then parsed.dispatches
          else parsed.dispatches ++ responser.response id h parsed.response

end Parsers

end BServer
