import BServer.Base.Wire

/-!
# `Proto.Messages` — the message classes of `connect_server.proto` and `ServicePacket.proto`

One record for each generated class the server handles. An `Option` field is a field with its has-bit: `none`
is `has_x() == false`, and `x()` then answers the default. Only the three outer classes have required fields
(`IsInitialized`): a `ServiceRequest` carries a `ServicePacket` in its payload, and so does the
`ServiceResponse` that answers it. Fields unknown to the classes are not kept; no parsed message is ever
serialised again.

`Proto` is the codec of each outer class, as the server uses it; nothing in the development depends on which
one. `Proto.wire` is the one the generated code implements, obtained from the schemas: field numbers, types
and order as in the generated `SerializeWithCachedSizes`.
-/

namespace BServer

open Wire (Message Schema Codec FieldSpec)

/-! ## `ServicePacket` and what it can carry -/

structure ReplyRequest where
  cid           : Option Bytes := none
  type          : Option Bytes := none
  expiry        : Option (BitVec 64) := none
  topicId       : Option Bytes := none
  sign          : Option Bytes := none
  v             : Option Bytes := none
  platform      : Option Bytes := none
  deviceId      : Option Bytes := none
  authorization : Option Bytes := none
  data          : Option Bytes := none
deriving DecidableEq

structure ReplyResponse where
  cid  : Option Bytes := none
  type : Option Bytes := none
  data : Option Bytes := none
deriving DecidableEq

structure PostTopicRequest where
  cid           : Option Bytes := none
  type          : Option Bytes := none
  expiry        : Option (BitVec 64) := none
  forumId       : Option Bytes := none
  sign          : Option Bytes := none
  v             : Option Bytes := none
  platform      : Option Bytes := none
  deviceId      : Option Bytes := none
  authorization : Option Bytes := none
  data          : Option Bytes := none
deriving DecidableEq

structure PostTopicResponse where
  cid  : Option Bytes := none
  type : Option Bytes := none
  data : Option Bytes := none
deriving DecidableEq

structure PublicServiceRequest where
  cid       : Option Bytes := none
  serviceId : Option Bytes := none
  data      : Option Bytes := none
deriving DecidableEq

structure PublicServiceResponse where
  cid       : Option Bytes := none
  serviceId : Option Bytes := none
  data      : Option Bytes := none
  time      : Option (BitVec 64) := none
deriving DecidableEq

structure GroupLBSNearRequest where
  cid         : Option Bytes := none
  lat         : Option (BitVec 64) := none
  long        : Option (BitVec 64) := none
  start       : Option (BitVec 32) := none
  limit       : Option (BitVec 32) := none
  maxDistance : Option (BitVec 32) := none
deriving DecidableEq

structure GroupLBSNearResponse where
  cid    : Option Bytes := none
  status : Option (BitVec 32) := none
  data   : Option Bytes := none
deriving DecidableEq

structure GroupCityRequest where
  cid   : Option Bytes := none
  city  : Option Bytes := none
  start : Option (BitVec 32) := none
  limit : Option (BitVec 32) := none
deriving DecidableEq

structure GroupCityResponse where
  cid    : Option Bytes := none
  status : Option (BitVec 32) := none
  data   : Option Bytes := none
deriving DecidableEq

structure PythonCoreRequest where
  cid          : Option Bytes := none
  jsonRequest  : Option Bytes := none
  moduleName   : Option Bytes := none
  functionName : Option Bytes := none
deriving DecidableEq

structure PythonCoreResponse where
  cid          : Option Bytes := none
  jsonResponse : Option Bytes := none
  status       : Option (BitVec 32) := none
deriving DecidableEq

/-- `meet_you::ServicePacket`: the type says which of the others to look at. -/
structure ServicePacket where
  type                  : Option (BitVec 32) := none
  replyRequest          : Option ReplyRequest := none
  replyResponse         : Option ReplyResponse := none
  postTopicRequest      : Option PostTopicRequest := none
  postTopicResponse     : Option PostTopicResponse := none
  publicServiceRequest  : Option PublicServiceRequest := none
  publicServiceResponse : Option PublicServiceResponse := none
  groupLbsNearRequest   : Option GroupLBSNearRequest := none
  groupLbsNearResponse  : Option GroupLBSNearResponse := none
  groupCityRequest      : Option GroupCityRequest := none
  groupCityResponse     : Option GroupCityResponse := none
  pythonCoreRequest     : Option PythonCoreRequest := none
  pythonCoreResponse    : Option PythonCoreResponse := none
deriving DecidableEq

/-! ## The envelope -/

/-- `meet_you::ServiceRequest`. -/
structure ServiceRequest where
  sessid      : Option Bytes := none
  serviceType : Option (BitVec 32) := none
  sn          : Option Bytes := none
  payload     : Option Bytes := none
deriving DecidableEq

/-- `meet_you::ServiceResponse`. -/
structure ServiceResponse where
  sessid      : Option Bytes := none
  serviceType : Option (BitVec 32) := none
  sn          : Option Bytes := none
  status      : Option (BitVec 32) := none
  payload     : Option Bytes := none
deriving DecidableEq

/-- `SvRegRequest`, with which this server registers at another. -/
structure SvRegRequest where
  serviceType : Option (BitVec 32) := none
deriving DecidableEq

/-! ## Required fields -/

instance : Message ReplyRequest := ⟨{}, fun _ => true⟩
instance : Message ReplyResponse := ⟨{}, fun _ => true⟩
instance : Message PostTopicRequest := ⟨{}, fun _ => true⟩
instance : Message PostTopicResponse := ⟨{}, fun _ => true⟩
instance : Message PublicServiceRequest := ⟨{}, fun _ => true⟩
instance : Message PublicServiceResponse := ⟨{}, fun _ => true⟩
instance : Message GroupLBSNearRequest := ⟨{}, fun _ => true⟩
instance : Message GroupLBSNearResponse := ⟨{}, fun _ => true⟩
instance : Message GroupCityRequest := ⟨{}, fun _ => true⟩
instance : Message GroupCityResponse := ⟨{}, fun _ => true⟩
instance : Message PythonCoreRequest := ⟨{}, fun _ => true⟩
instance : Message PythonCoreResponse := ⟨{}, fun _ => true⟩

instance : Message ServicePacket := ⟨{}, fun m => m.type.isSome⟩

instance : Message ServiceRequest :=
  ⟨{}, fun m => m.sessid.isSome && m.serviceType.isSome && m.sn.isSome⟩

instance : Message ServiceResponse :=
  ⟨{}, fun m => m.sessid.isSome && m.serviceType.isSome && m.sn.isSome && m.status.isSome⟩

instance : Message SvRegRequest := ⟨{}, fun m => m.serviceType.isSome⟩

/-- The codecs the server uses. -/
structure Proto where
  packet   : Codec ServicePacket
  request  : Codec ServiceRequest
  response : Codec ServiceResponse

/-! ## The generated codecs -/

def ReplyRequest.schema : Schema ReplyRequest :=
  [ .mk 1 .bytes (·.cid) (fun m a => { m with cid := a }),
    .mk 2 .bytes (·.type) (fun m a => { m with type := a }),
    .mk 3 .int64 (·.expiry) (fun m a => { m with expiry := a }),
    .mk 4 .bytes (·.topicId) (fun m a => { m with topicId := a }),
    .mk 5 .bytes (·.sign) (fun m a => { m with sign := a }),
    .mk 6 .bytes (·.v) (fun m a => { m with v := a }),
    .mk 7 .bytes (·.platform) (fun m a => { m with platform := a }),
    .mk 8 .bytes (·.deviceId) (fun m a => { m with deviceId := a }),
    .mk 9 .bytes (·.authorization) (fun m a => { m with authorization := a }),
    .mk 10 .bytes (·.data) (fun m a => { m with data := a }) ]

theorem ReplyRequest.lossless : ReplyRequest.schema.Lossless :=
  ⟨by decide, fun _ => ⟨rfl, rfl, rfl, rfl, rfl, rfl, rfl, rfl, rfl, rfl, rfl⟩⟩

def ReplyResponse.schema : Schema ReplyResponse :=
  [ .mk 1 .bytes (·.cid) (fun m a => { m with cid := a }),
    .mk 2 .bytes (·.type) (fun m a => { m with type := a }),
    .mk 3 .bytes (·.data) (fun m a => { m with data := a }) ]

theorem ReplyResponse.lossless : ReplyResponse.schema.Lossless :=
  ⟨by decide, fun _ => ⟨rfl, rfl, rfl, rfl⟩⟩

def PostTopicRequest.schema : Schema PostTopicRequest :=
  [ .mk 1 .bytes (·.cid) (fun m a => { m with cid := a }),
    .mk 2 .bytes (·.type) (fun m a => { m with type := a }),
    .mk 3 .int64 (·.expiry) (fun m a => { m with expiry := a }),
    .mk 4 .bytes (·.forumId) (fun m a => { m with forumId := a }),
    .mk 5 .bytes (·.sign) (fun m a => { m with sign := a }),
    .mk 6 .bytes (·.v) (fun m a => { m with v := a }),
    .mk 7 .bytes (·.platform) (fun m a => { m with platform := a }),
    .mk 8 .bytes (·.deviceId) (fun m a => { m with deviceId := a }),
    .mk 9 .bytes (·.authorization) (fun m a => { m with authorization := a }),
    .mk 10 .bytes (·.data) (fun m a => { m with data := a }) ]

theorem PostTopicRequest.lossless : PostTopicRequest.schema.Lossless :=
  ⟨by decide, fun _ => ⟨rfl, rfl, rfl, rfl, rfl, rfl, rfl, rfl, rfl, rfl, rfl⟩⟩

def PostTopicResponse.schema : Schema PostTopicResponse :=
  [ .mk 1 .bytes (·.cid) (fun m a => { m with cid := a }),
    .mk 2 .bytes (·.type) (fun m a => { m with type := a }),
    .mk 3 .bytes (·.data) (fun m a => { m with data := a }) ]

theorem PostTopicResponse.lossless : PostTopicResponse.schema.Lossless :=
  ⟨by decide, fun _ => ⟨rfl, rfl, rfl, rfl⟩⟩

def PublicServiceRequest.schema : Schema PublicServiceRequest :=
  [ .mk 1 .bytes (·.cid) (fun m a => { m with cid := a }),
    .mk 2 .bytes (·.serviceId) (fun m a => { m with serviceId := a }),
    .mk 3 .bytes (·.data) (fun m a => { m with data := a }) ]

theorem PublicServiceRequest.lossless : PublicServiceRequest.schema.Lossless :=
  ⟨by decide, fun _ => ⟨rfl, rfl, rfl, rfl⟩⟩

def PublicServiceResponse.schema : Schema PublicServiceResponse :=
  [ .mk 1 .bytes (·.cid) (fun m a => { m with cid := a }),
    .mk 2 .bytes (·.serviceId) (fun m a => { m with serviceId := a }),
    .mk 3 .bytes (·.data) (fun m a => { m with data := a }),
    .mk 4 .int64 (·.time) (fun m a => { m with time := a }) ]

theorem PublicServiceResponse.lossless : PublicServiceResponse.schema.Lossless :=
  ⟨by decide, fun _ => ⟨rfl, rfl, rfl, rfl, rfl⟩⟩

def GroupLBSNearRequest.schema : Schema GroupLBSNearRequest :=
  [ .mk 1 .bytes (·.cid) (fun m a => { m with cid := a }),
    .mk 2 .double (·.lat) (fun m a => { m with lat := a }),
    .mk 3 .double (·.long) (fun m a => { m with long := a }),
    .mk 4 .int32 (·.start) (fun m a => { m with start := a }),
    .mk 5 .int32 (·.limit) (fun m a => { m with limit := a }),
    .mk 6 .int32 (·.maxDistance) (fun m a => { m with maxDistance := a }) ]

theorem GroupLBSNearRequest.lossless : GroupLBSNearRequest.schema.Lossless :=
  ⟨by decide, fun _ => ⟨rfl, rfl, rfl, rfl, rfl, rfl, rfl⟩⟩

def GroupLBSNearResponse.schema : Schema GroupLBSNearResponse :=
  [ .mk 1 .bytes (·.cid) (fun m a => { m with cid := a }),
    .mk 2 .int32 (·.status) (fun m a => { m with status := a }),
    .mk 3 .bytes (·.data) (fun m a => { m with data := a }) ]

theorem GroupLBSNearResponse.lossless : GroupLBSNearResponse.schema.Lossless :=
  ⟨by decide, fun _ => ⟨rfl, rfl, rfl, rfl⟩⟩

def GroupCityRequest.schema : Schema GroupCityRequest :=
  [ .mk 1 .bytes (·.cid) (fun m a => { m with cid := a }),
    .mk 2 .bytes (·.city) (fun m a => { m with city := a }),
    .mk 3 .int32 (·.start) (fun m a => { m with start := a }),
    .mk 4 .int32 (·.limit) (fun m a => { m with limit := a }) ]

theorem GroupCityRequest.lossless : GroupCityRequest.schema.Lossless :=
  ⟨by decide, fun _ => ⟨rfl, rfl, rfl, rfl, rfl⟩⟩

def GroupCityResponse.schema : Schema GroupCityResponse :=
  [ .mk 1 .bytes (·.cid) (fun m a => { m with cid := a }),
    .mk 2 .int32 (·.status) (fun m a => { m with status := a }),
    .mk 3 .bytes (·.data) (fun m a => { m with data := a }) ]

theorem GroupCityResponse.lossless : GroupCityResponse.schema.Lossless :=
  ⟨by decide, fun _ => ⟨rfl, rfl, rfl, rfl⟩⟩

def PythonCoreRequest.schema : Schema PythonCoreRequest :=
  [ .mk 1 .bytes (·.cid) (fun m a => { m with cid := a }),
    .mk 2 .bytes (·.jsonRequest) (fun m a => { m with jsonRequest := a }),
    .mk 3 .bytes (·.moduleName) (fun m a => { m with moduleName := a }),
    .mk 4 .bytes (·.functionName) (fun m a => { m with functionName := a }) ]

theorem PythonCoreRequest.lossless : PythonCoreRequest.schema.Lossless :=
  ⟨by decide, fun _ => ⟨rfl, rfl, rfl, rfl, rfl⟩⟩

def PythonCoreResponse.schema : Schema PythonCoreResponse :=
  [ .mk 1 .bytes (·.cid) (fun m a => { m with cid := a }),
    .mk 2 .bytes (·.jsonResponse) (fun m a => { m with jsonResponse := a }),
    .mk 3 .int32 (·.status) (fun m a => { m with status := a }) ]

theorem PythonCoreResponse.lossless : PythonCoreResponse.schema.Lossless :=
  ⟨by decide, fun _ => ⟨rfl, rfl, rfl, rfl⟩⟩

def ServicePacket.schema : Schema ServicePacket :=
  [ .mk 1 .int32 (·.type) (fun m a => { m with type := a }),
    .mk 2 (.message _ ReplyRequest.lossless) (·.replyRequest)
      (fun m a => { m with replyRequest := a }),
    .mk 3 (.message _ ReplyResponse.lossless) (·.replyResponse)
      (fun m a => { m with replyResponse := a }),
    .mk 4 (.message _ PostTopicRequest.lossless) (·.postTopicRequest)
      (fun m a => { m with postTopicRequest := a }),
    .mk 5 (.message _ PostTopicResponse.lossless) (·.postTopicResponse)
      (fun m a => { m with postTopicResponse := a }),
    .mk 6 (.message _ PublicServiceRequest.lossless) (·.publicServiceRequest)
      (fun m a => { m with publicServiceRequest := a }),
    .mk 7 (.message _ PublicServiceResponse.lossless) (·.publicServiceResponse)
      (fun m a => { m with publicServiceResponse := a }),
    .mk 8 (.message _ GroupLBSNearRequest.lossless) (·.groupLbsNearRequest)
      (fun m a => { m with groupLbsNearRequest := a }),
    .mk 9 (.message _ GroupLBSNearResponse.lossless) (·.groupLbsNearResponse)
      (fun m a => { m with groupLbsNearResponse := a }),
    .mk 10 (.message _ GroupCityRequest.lossless) (·.groupCityRequest)
      (fun m a => { m with groupCityRequest := a }),
    .mk 11 (.message _ GroupCityResponse.lossless) (·.groupCityResponse)
      (fun m a => { m with groupCityResponse := a }),
    .mk 12 (.message _ PythonCoreRequest.lossless) (·.pythonCoreRequest)
      (fun m a => { m with pythonCoreRequest := a }),
    .mk 13 (.message _ PythonCoreResponse.lossless) (·.pythonCoreResponse)
      (fun m a => { m with pythonCoreResponse := a }) ]

theorem ServicePacket.lossless : ServicePacket.schema.Lossless :=
  ⟨by decide, fun _ => ⟨rfl, rfl, rfl, rfl, rfl, rfl, rfl, rfl, rfl, rfl, rfl, rfl, rfl, rfl⟩⟩

def ServiceRequest.schema : Schema ServiceRequest :=
  [ .mk 1 .bytes (·.sessid) (fun m a => { m with sessid := a }),
    .mk 2 .int32 (·.serviceType) (fun m a => { m with serviceType := a }),
    .mk 3 .bytes (·.sn) (fun m a => { m with sn := a }),
    .mk 4 .bytes (·.payload) (fun m a => { m with payload := a }) ]

theorem ServiceRequest.lossless : ServiceRequest.schema.Lossless :=
  ⟨by decide, fun _ => ⟨rfl, rfl, rfl, rfl, rfl⟩⟩

def ServiceResponse.schema : Schema ServiceResponse :=
  [ .mk 1 .bytes (·.sessid) (fun m a => { m with sessid := a }),
    .mk 2 .int32 (·.serviceType) (fun m a => { m with serviceType := a }),
    .mk 3 .bytes (·.sn) (fun m a => { m with sn := a }),
    .mk 4 .int32 (·.status) (fun m a => { m with status := a }),
    .mk 5 .bytes (·.payload) (fun m a => { m with payload := a }) ]

theorem ServiceResponse.lossless : ServiceResponse.schema.Lossless :=
  ⟨by decide, fun _ => ⟨rfl, rfl, rfl, rfl, rfl, rfl⟩⟩

def SvRegRequest.schema : Schema SvRegRequest :=
  [ .mk 1 .int32 (·.serviceType) (fun m a => { m with serviceType := a }) ]

theorem SvRegRequest.lossless : SvRegRequest.schema.Lossless := ⟨by decide, fun _ => ⟨rfl, rfl⟩⟩

/-! ### The fields are independent

Each `case` of the generated `MergePartialFromCodedStream` writes one field and looks at no other. -/

theorem ReplyRequest.apart : ReplyRequest.schema.Apart := by
  simp [Schema.Apart, ReplyRequest.schema, FieldSpec.apart_iff]

theorem ReplyResponse.apart : ReplyResponse.schema.Apart := by
  simp [Schema.Apart, ReplyResponse.schema, FieldSpec.apart_iff]

theorem PostTopicRequest.apart : PostTopicRequest.schema.Apart := by
  simp [Schema.Apart, PostTopicRequest.schema, FieldSpec.apart_iff]

theorem PostTopicResponse.apart : PostTopicResponse.schema.Apart := by
  simp [Schema.Apart, PostTopicResponse.schema, FieldSpec.apart_iff]

theorem PublicServiceRequest.apart : PublicServiceRequest.schema.Apart := by
  simp [Schema.Apart, PublicServiceRequest.schema, FieldSpec.apart_iff]

theorem PublicServiceResponse.apart : PublicServiceResponse.schema.Apart := by
  simp [Schema.Apart, PublicServiceResponse.schema, FieldSpec.apart_iff]

theorem GroupLBSNearRequest.apart : GroupLBSNearRequest.schema.Apart := by
  simp [Schema.Apart, GroupLBSNearRequest.schema, FieldSpec.apart_iff]

theorem GroupLBSNearResponse.apart : GroupLBSNearResponse.schema.Apart := by
  simp [Schema.Apart, GroupLBSNearResponse.schema, FieldSpec.apart_iff]

theorem GroupCityRequest.apart : GroupCityRequest.schema.Apart := by
  simp [Schema.Apart, GroupCityRequest.schema, FieldSpec.apart_iff]

theorem GroupCityResponse.apart : GroupCityResponse.schema.Apart := by
  simp [Schema.Apart, GroupCityResponse.schema, FieldSpec.apart_iff]

theorem PythonCoreRequest.apart : PythonCoreRequest.schema.Apart := by
  simp [Schema.Apart, PythonCoreRequest.schema, FieldSpec.apart_iff]

theorem PythonCoreResponse.apart : PythonCoreResponse.schema.Apart := by
  simp [Schema.Apart, PythonCoreResponse.schema, FieldSpec.apart_iff]

theorem ServicePacket.apart : ServicePacket.schema.Apart := by
  simp [Schema.Apart, ServicePacket.schema, FieldSpec.apart_iff]

theorem ServiceRequest.apart : ServiceRequest.schema.Apart := by
  simp [Schema.Apart, ServiceRequest.schema, FieldSpec.apart_iff]

/-! ### The codecs -/

/-- The codecs of the generated classes. -/
def Proto.wire : Proto where
  packet := ServicePacket.schema.codec ServicePacket.lossless rfl
  request := ServiceRequest.schema.codec ServiceRequest.lossless rfl
  response := ServiceResponse.schema.codec ServiceResponse.lossless rfl

/-- The codec of `SvRegRequest`, which only one function uses. -/
def SvRegRequest.codec : Codec SvRegRequest := SvRegRequest.schema.codec SvRegRequest.lossless rfl

end BServer
