import BServer.Base.Traced
import BServer.Task.Responser

/-!
# `Task.ServicePackage` — what is done with the payload of a request

The payload of a `ServiceRequest` is a `ServicePacket`, and three inner tasks look at it:
`service_package_responser` under command 200, `group_responser` under 7818, `python_func_service_responser`
under 8000. They are translated here whole, down to the URL, the headers and the text of each request they make
of another machine. A task is a `Traced` computation: it yields its result and the packet it wrote, and it
leaves the calls it made.

What the other machines answer is `Upstream`. Two things are a worker's own: the session cache and the mongo
client, thread-specific pointers that `init_cache_map` sets, or does not (`WorkerCaches`). Going through an
unset one is a fault of its own (`Fault.nullDeref`), which no handler of exceptions sees.
-/

namespace BServer

open Bytes

/-! ## Calls that leave the process -/

/-- A transfer of `curl_base`. -/
inductive HttpCall where
  /-- `Get`, which never looks at the headers -/
  | get (url : Bytes)
  /-- `Post` -/
  | post (url : Bytes) (headers : List Bytes) (data : Bytes)
deriving DecidableEq

/-- `group_mongo_client`, connected. -/
structure MongoClient where
  hosts : List (Bytes × Int)
deriving DecidableEq

/-- What a worker asks of its mongo client. `max_distance` is an `int` that is handed over as a `double`. -/
inductive StoreQuery where
  | findNear (db collection : Bytes) (lat long : BitVec 64) (maxDistance start limit : CInt) (params : Bytes)
  | findByCondition (db collection condition : Bytes) (start limit : CInt) (params : Bytes)
deriving DecidableEq

/-- A call of the embedded interpreter. -/
structure PythonCall where
  path    : Bytes
  modName : Bytes
  func    : Bytes
  arg     : Bytes
deriving DecidableEq

/-- `meet_you::SessCache`, initialised on two zookeeper paths. -/
structure SessCache where
  path    : Bytes
  pathBak : Bytes
deriving DecidableEq

inductive ExternalCall where
  | http (c : HttpCall)
  | store (client : MongoClient) (q : StoreQuery)
  | python (c : PythonCall)
  | sessions (cache : SessCache) (cid : Bytes)
deriving DecidableEq

/-- How a handler ends without a value. -/
inductive Fault where
  /-- an exception, which `do_work` catches -/
  | threw
  /-- a null pointer was followed: nothing catches that -/
  | nullDeref
deriving DecidableEq, Repr

/-- What the configuration says, and what the world outside answers this time. -/
structure Upstream where
  replyDomain       : Bytes
  postTopicDomain   : Bytes
  robotDomain       : Bytes
  pythonRoot        : Bytes
  /-- the bytes a transfer appends to its response, whatever code it ends with -/
  http              : HttpCall → Bytes
  /-- the JSON and the error text of a query; `none` when the client throws -/
  store             : MongoClient → StoreQuery → Option (Bytes × Bytes)
  /-- the value of a call, or the `what()` of the exception it throws -/
  python            : PythonCall → Except Bytes Bytes
  /-- `SessCache::get_session`, in map order; `none` when it throws -/
  sessions          : SessCache → Bytes → Option (List (Bytes × Sess))
  /-- milliseconds since 1970 -/
  totalMilliseconds : BitVec 64
  /-- `Json::StyledWriter`, or the empty string when it throws -/
  writeJson         : Json → Bytes
  /-- what `Json::Reader::parse` leaves in its output value -/
  readJson          : Bytes → Json
  /-- the textual form of `uuid_generate` -/
  uuid              : Bytes

/-- A world that has next to nothing to say, and never fails. -/
def silentUpstream : Upstream :=
  { replyDomain := [], postTopicDomain := [], robotDomain := [], pythonRoot := []
    http := fun _ => []
    store := fun _ _ => some (ascii "[]", [])
    python := fun _ => .ok []
    sessions := fun _ _ => some []
    totalMilliseconds := 0
    writeJson := fun _ => []
    readJson := fun _ => .null
    uuid := [] }

/-- A handler on its way. -/
abbrev Handler := Traced ExternalCall Fault

/-! ## `session_task` -/

/-- The thread-specific pointers of a worker. -/
structure WorkerCaches where
  sessCache        : Option SessCache
  mongoClientCache : Option MongoClient
deriving DecidableEq

/-- `operator->` of a pointer. -/
def deref {α : Type} : Option α → Handler α
  | none   => .fault .nullDeref
  | some a => pure a

/-- An answer, or an exception. -/
def orThrow {α : Type} : Option α → Except Fault α
  | none   => .error .threw
  | some a => .ok a

namespace WorkerCaches

variable (up : Upstream) (w : WorkerCaches)

/-- `get_session`. -/
def getSession (cid : Bytes) : Handler (List (Bytes × Sess)) := do
  let cache ← deref w.sessCache
  .call (.sessions cache cid) (orThrow (up.sessions cache cid))

def connectionError : Bytes := ascii "\x7b\"error\":\"connetion error\"\x7d"

/-- A query through `mongo_client_cache_`: its JSON, and what it leaves in `error`, which is empty before. -/
def query (q : StoreQuery) : Handler (Bytes × Bytes) :=
  -- without a client the answer is an error text, and `error` stays empty
  if w.mongoClientCache.isNone then pure (connectionError, [])
  else do
    let client ← deref w.mongoClientCache
    .call (.store client q) (orThrow (up.store client q))

/-- `find_near`. -/
def findNear (lat long : BitVec 64) (maxDistance start limit : CInt) (params : Bytes) :
    Handler (Bytes × Bytes) :=
  w.query up (.findNear (ascii "service") (ascii "group_talk") lat long maxDistance start limit params)

/-- The condition of `find_by_city`. -/
def cityCondition (city : Bytes) : Bytes := ascii "\x7b\"city\":\"" ++ city ++ ascii "\"\x7d"

/-- `find_by_city`. -/
def findByCity (city : Bytes) (start limit : CInt) (params : Bytes) : Handler (Bytes × Bytes) :=
  w.query up (.findByCondition (ascii "service") (ascii "group_talk") (cityCondition city) start limit params)

end WorkerCaches

/-! ## Requests over HTTP -/

/-- `init_json_header`. -/
def jsonHeaders : List Bytes :=
  [ascii "Content-type: application/json", ascii "Accept: application/json",
    ascii "Cache-Control: no-cache", ascii "Pragma: no-cache"]

/-- How all three handlers end: get when there is no data, and post it otherwise. -/
def transfer (url authorization requestData : Bytes) : HttpCall :=
  let headers := if authorization.isEmpty then [] else [ascii "Authorization:" ++ authorization]
  if requestData.isEmpty then .get (cString url)
  else .post (cString url) (jsonHeaders ++ headers.map cString) (cString requestData)

/-- The transfer and its response; a failed one is only logged. -/
def perform (up : Upstream) (c : HttpCall) : Handler Bytes := .call (.http c) (.ok (up.http c))

/-- The URL both forum requests build, under a domain, for one of two resources. -/
def resourceUrl (domain id resource sign v platform deviceId : Bytes) : Bytes :=
  domain ++ (ascii "/" ++ id ++ resource ++ ascii "sign=" ++ sign ++ ascii "&v=" ++ v
    ++ ascii "&platform=" ++ platform ++ ascii "&device_id=" ++ deviceId)

namespace ServicePackageResponser

variable (up : Upstream) (w : WorkerCaches)

def replyUrl (rr : ReplyRequest) : Bytes :=
  resourceUrl up.replyDomain (rr.topicId.getD []) (ascii "/reviews?") (rr.sign.getD []) (rr.v.getD [])
    (rr.platform.getD []) (rr.deviceId.getD [])

/-- `do_reply_request`. -/
def doReplyRequest (packet : ServicePacket) : Handler ServicePacket := do
  let rr := packet.replyRequest.getD {}
  let curlResponse ←
    perform up (transfer (replyUrl up rr) (rr.authorization.getD []) (rr.data.getD []))
  return { type := some 22
           replyResponse := some { cid := some (rr.cid.getD []), type := some (rr.type.getD [])
                                   data := some curlResponse } }

def postTopicUrl (ptr : PostTopicRequest) : Bytes :=
  resourceUrl up.postTopicDomain (ptr.forumId.getD []) (ascii "/topics?") (ptr.sign.getD []) (ptr.v.getD [])
    (ptr.platform.getD []) (ptr.deviceId.getD [])

/-- `do_post_topic_request`. -/
def doPostTopicRequest (packet : ServicePacket) : Handler ServicePacket := do
  let ptr := packet.postTopicRequest.getD {}
  let curlResponse ←
    perform up (transfer (postTopicUrl up ptr) (ptr.authorization.getD []) (ptr.data.getD []))
  return { type := some 24
           postTopicResponse := some { cid := some (ptr.cid.getD []), type := some (ptr.type.getD [])
                                       data := some curlResponse } }

/-- `to_service_request`. A `Json::Value` keeps its members in key order. -/
def toServiceRequest (cid serviceId data : Bytes) : Bytes :=
  up.writeJson (.object [(ascii "cid", .string cid), (ascii "data", .string data),
    (ascii "service_id", .string serviceId)])

/-- `do_public_service_request`; there is never an authorization. -/
def doPublicServiceRequest (packet : ServicePacket) : Handler ServicePacket := do
  let psr := packet.publicServiceRequest.getD {}
  let requestData := toServiceRequest up (psr.cid.getD []) (psr.serviceId.getD []) (psr.data.getD [])
  let curlResponse ← perform up (transfer up.robotDomain [] requestData)
  return { type := some 26
           publicServiceResponse := some { cid := some (psr.cid.getD [])
                                           serviceId := some (psr.serviceId.getD [])
                                           data := some curlResponse, time := some up.totalMilliseconds } }

end ServicePackageResponser

/-! ## Requests to the store

Both responsers that serve these requests have a copy of the two handlers. The copies differ in what they
log. -/

/-- What the handler of a near request makes of the answer of the store: whether it succeeded, and the packet. -/
def nearAnswer (cid : Bytes) (answer : Bytes × Bytes) : Bool × ServicePacket :=
  let (json, error) := answer
  if !error.isEmpty then
    (false, { type := some 28
              groupLbsNearResponse := some { cid := some cid, status := some (-1), data := some error } })
  else
    (true, { type := some 28
             groupLbsNearResponse := some { cid := some cid, status := some 0, data := some json } })

/-- A group request near a place. -/
def groupNearRequest (up : Upstream) (w : WorkerCaches) (packet : ServicePacket) :
    Handler (Bool × ServicePacket) := do
  let req := packet.groupLbsNearRequest.getD {}
  let answer ← w.findNear up (req.lat.getD 0) (req.long.getD 0) (req.maxDistance.getD 0)
    (req.start.getD 0) (req.limit.getD 0) []
  return nearAnswer (req.cid.getD []) answer

/-- What the handler of a city request makes of the answer of the store. -/
def cityAnswer (cid : Bytes) (answer : Bytes × Bytes) : Bool × ServicePacket :=
  let (json, error) := answer
  if !error.isEmpty then
    (false, { type := some 30
              groupCityResponse := some { cid := some cid, status := some (-1), data := some error } })
  else
    (true, { type := some 30
             groupCityResponse := some { cid := some cid, status := some 0, data := some json } })

/-- A group request for a city. -/
def groupCityRequest (up : Upstream) (w : WorkerCaches) (packet : ServicePacket) :
    Handler (Bool × ServicePacket) := do
  let req := packet.groupCityRequest.getD {}
  let answer ← w.findByCity up (req.city.getD []) (req.start.getD 0) (req.limit.getD 0) []
  return cityAnswer (req.cid.getD []) answer

/-- The result of a task that may have failed. -/
def resultOf (status : Bool) : ServiceResponseResult :=
  { ServiceResponseResult.fresh with status := if status then 0 else -1 }

namespace ServicePackageResponser

variable (proto : Proto) (up : Upstream) (w : WorkerCaches)

/-- `parser_group_near_request`. -/
def parserGroupNearRequest : ServicePacket → Handler (Bool × ServicePacket) := groupNearRequest up w

/-- `parser_group_city_request`. -/
def parserGroupCityRequest : ServicePacket → Handler (Bool × ServicePacket) := groupCityRequest up w

/-- The first chain of `parser`, over the requests served by HTTP. -/
def overHttp (packet : ServicePacket) : Handler ServicePacket :=
  if packet.type.getD 0 = 21 then doReplyRequest up packet
  else if packet.type.getD 0 = 23 then doPostTopicRequest up packet
  else if packet.type.getD 0 = 25 then doPublicServiceRequest up packet
  else pure {}

/-- The second chain, over the requests served by the store; what it does not serve keeps the status of the
    parse and the packet of the first. -/
def overStore (packet packetResponse : ServicePacket) : Handler (Bool × ServicePacket) :=
  if packet.type.getD 0 = 27 then parserGroupNearRequest up w packet
  else if packet.type.getD 0 = 29 then parserGroupCityRequest up w packet
  else pure (true, packetResponse)

/-- `service_package_responser::parser`. -/
def parser (data : Bytes) : Handler (ServiceResponseResult × Bytes) :=
  match proto.packet.parse data with
  | none => pure (.fresh, [])
  | some packet => do
      let packetResponse ← overHttp up packet
      let out ← overStore up w packet packetResponse
      return (resultOf out.1, proto.packet.serialize out.2)

end ServicePackageResponser

namespace GroupResponser

variable (proto : Proto) (up : Upstream) (w : WorkerCaches)

/-- `parser_group_near_request`. -/
def parserGroupNearRequest : ServicePacket → Handler (Bool × ServicePacket) := groupNearRequest up w

/-- `parser_group_city_request`. -/
def parserGroupCityRequest : ServicePacket → Handler (Bool × ServicePacket) := groupCityRequest up w

def overStore (packet : ServicePacket) : Handler (Bool × ServicePacket) :=
  if packet.type.getD 0 = 27 then parserGroupNearRequest up w packet
  else if packet.type.getD 0 = 29 then parserGroupCityRequest up w packet
  else pure (true, {})

/-- `group_responser::parser`. -/
def parser (data : Bytes) : Handler (ServiceResponseResult × Bytes) :=
  match proto.packet.parse data with
  | none => pure (resultOf false, [])
  | some packet =>
      if packet.type.getD 0 ≠ 27 || packet.type.getD 0 ≠ 29 then pure (resultOf false, [])
      else do
        let out ← overStore up w packet
        return (resultOf out.1, proto.packet.serialize out.2)

end GroupResponser

/-! ## Requests to the interpreter -/

namespace PythonFuncServiceResponser

variable (proto : Proto) (up : Upstream)

/-- `replace_all`, for a pattern of one character. -/
def replaceAll (str : Bytes) (src : UInt8) (dst : Bytes) : Bytes :=
  str.flatMap (fun b => if b = src then dst else [b])

/-- The JSON that reports an exception, by its `what()`. -/
def exceptionJson (what : Bytes) : Bytes :=
  let error := replaceAll (replaceAll what 13 []) 10 []
  ascii "\x7b\"error\":\"service exception!\", \"code\":\"" ++ error ++ ascii "\"\x7d"

/-- The response to a call. -/
def callResponse (cid : Bytes) : Except Bytes Bytes → PythonCoreResponse
  | .ok json    => { cid := some cid, status := some 1, jsonResponse := some json }
  | .error what => { cid := some cid, status := some 0, jsonResponse := some (exceptionJson what) }

/-- `python_func_service_responser::parser`. -/
def parser (data : Bytes) : Handler (ServiceResponseResult × Bytes) :=
  match proto.packet.parse data with
  | none => pure (.fresh, [])
  | some packet =>
      if packet.type.getD 0 ≠ 31 then pure (.fresh, [])
      else do
        let req := packet.pythonCoreRequest.getD {}
        let c : PythonCall := ⟨up.pythonRoot, cString (req.moduleName.getD []),
          cString (req.functionName.getD []), req.jsonRequest.getD []⟩
        -- the exception is caught here, so the call never ends in a fault
        let answer ← Traced.call (.python c) (.ok (up.python c))
        return (.fresh, proto.packet.serialize
          { type := some 32, pythonCoreResponse := some (callResponse (req.cid.getD []) answer) })

end PythonFuncServiceResponser

/-! ## What each parser does -/

section Parsers

variable {proto : Proto} {up : Upstream} {w : WorkerCaches} {data : Bytes} {packet : ServicePacket}

theorem WorkerCaches.query_unset (h : w.mongoClientCache = none) (q : StoreQuery) :
    w.query up q = pure (connectionError, []) := by
  rw [WorkerCaches.query, h]
  rfl

/-- A client that is set is asked, and it alone decides. -/
theorem WorkerCaches.query_set {client : MongoClient} (h : w.mongoClientCache = some client) (q : StoreQuery) :
    w.query up q = .call (.store client q) (orThrow (up.store client q)) := by
  rw [WorkerCaches.query, h]
  rfl

namespace ServicePackageResponser

theorem parser_unparsable (h : proto.packet.parse data = none) :
    parser proto up w data = pure (.fresh, []) := by
  rw [parser, h]

/-- What only the first chain looks at. -/
theorem parser_http (h : proto.packet.parse data = some packet) (h27 : packet.type.getD 0 ≠ 27)
    (h29 : packet.type.getD 0 ≠ 29) :
    parser proto up w data
      = overHttp up packet >>= fun answer => pure (resultOf true, proto.packet.serialize answer) := by
  rw [parser, h]
  simp only [overStore, if_neg h27, if_neg h29, Traced.bind_pure_left]

/-- What only the second chain looks at. -/
theorem parser_store (h : proto.packet.parse data = some packet)
    (ht : packet.type.getD 0 = 27 ∨ packet.type.getD 0 = 29) :
    parser proto up w data
      = overStore up w packet {} >>= fun out => pure (resultOf out.1, proto.packet.serialize out.2) := by
  have hhttp : overHttp up packet = pure {} := by
    unfold overHttp
    rcases ht with ht | ht
    · rw [ht]
      rfl
    · rw [ht]
      rfl
  rw [parser, h]
  simp only [hhttp, Traced.bind_pure_left]

end ServicePackageResponser

/-- **The guard.** No type is both 27 and 29, so every packet differs from one of them. -/
theorem GroupResponser.parser_eq (data : Bytes) :
    GroupResponser.parser proto up w data = pure (resultOf false, []) := by
  unfold parser
  cases hparse : proto.packet.parse data with
  | none => rfl
  | some packet =>
      have hguard : (packet.type.getD 0 ≠ 27 || packet.type.getD 0 ≠ 29) = true := by
        by_cases h : packet.type.getD 0 = 27
        · rw [h]
          rfl
        · rw [decide_eq_true h, Bool.true_or]
      simp only [hguard, if_true]

end Parsers

/-! ## The back ends of a worker -/

/-- An inner task, whatever serial number it is given: that is only logged. -/
def innerTaskOf (parser : Bytes → Handler (ServiceResponseResult × Bytes)) : InnerTask :=
  fun _ data => (parser data).outcome.toOption

/-- The back ends `do_work` has in a worker. -/
def WorkerCaches.backends (w : WorkerCaches) (proto : Proto) (up : Upstream) : Backends where
  servicePackage := innerTaskOf (ServicePackageResponser.parser proto up w)
  group := innerTaskOf (GroupResponser.parser proto up w)
  pythonFunc := innerTaskOf (PythonFuncServiceResponser.parser proto up)
  readJson := up.readJson
  getSession := fun cid => (w.getSession up cid).outcome.toOption
  uuid := up.uuid

end BServer
