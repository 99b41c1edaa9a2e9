import BServer.Task.Responser

/-!
# `Task.Reply` — who gets an answer

A `ServiceRequest` is answered when the reply frame carries a `ServiceResponse` with the request's session,
serial number and service type, the outcome of the inner task in its status, and what the task wrote as its
payload (`Answers`). The two results of this file say when that happens.

* `reply_envelope_iff` — under the three commands that unwrap a `ServiceRequest`, for every request and every
  synchronous outcome: exactly when the task ended with status `0` and the requester is bound in the outbound
  registry. With any other status the guard in front of the envelope keeps the response empty, the frame goes
  out with no body, and no body does not parse.
* `shed_request_unanswered` — a request shed under load (`try_pop` made its command 1010) gets no answer at
  all: the responser of that command writes nothing.
-/

namespace BServer

open Bytes

/-- A body answers the request `sr`, whose inner task ended with `status` and wrote `out`. -/
def Answers (proto : Proto) (sr : ServiceRequest) (status : CInt) (out body : Bytes) : Prop :=
  ∃ srp, proto.response.parse body = some srp ∧
    srp.sn = sr.sn ∧ srp.sessid = sr.sessid ∧ srp.serviceType = sr.serviceType ∧
    srp.payload = some out ∧ srp.status = some (if status = 0 then 0 else -1)

/-- The inner task of a responser that unwraps a `ServiceRequest`. -/
def Backends.innerTask (b : Backends) : Responser → Option InnerTask
  | .serverService => some b.servicePackage
  | .groupService  => some b.group
  | .pythonService => some b.pythonFunc
  | .serverServiceResponse | .servicePackageBusy => none

section Envelope

variable {proto : Proto} {b : Backends} {responser : Responser} {task : InnerTask}

/-! ## The envelope -/

theorem parser_of_innerTask (ht : b.innerTask responser = some task) (data : Bytes) :
    responser.parser proto b data = envelopeParser proto task data := by
  cases responser with
  | serverService => cases ht; rfl
  | groupService => cases ht; rfl
  | pythonService => cases ht; rfl
  | serverServiceResponse => cases ht
  | servicePackageBusy => cases ht

theorem response_of_innerTask (ht : b.innerTask responser = some task) (id : Bytes) (h : Head)
    (data : Bytes) :
    responser.response id h data = [.fixToServer id (frame { h with cmd := h.cmd + 1 } data)] := by
  cases responser with
  | serverService => rfl
  | groupService => rfl
  | pythonService => rfl
  | serverServiceResponse => cases ht
  | servicePackageBusy => cases ht

/-- A request whose payload goes to the inner task, and the task's synchronous outcome. -/
structure Handled (proto : Proto) (task : InnerTask) (data : Bytes) (sr : ServiceRequest) (status : CInt)
    (out : Bytes) : Prop where
  parsed  : proto.request.parse data = some sr
  type    : sr.serviceType = some serverServiceType
  payload : ∃ p, sr.payload = some p ∧ task (sr.sn.getD []) p = some (⟨status, false⟩, out)

variable {data out : Bytes} {sr : ServiceRequest} {status : CInt}

/-- **The parser of the envelope.** It returns the task's result, and wraps what the task wrote only when the
    status is `0`. -/
theorem Handled.envelopeParser_eq (h : Handled proto task data sr status out) :
    envelopeParser proto task data = some ⟨⟨status, false⟩,
      if status = 0 then proto.response.serialize (envelope sr status out) else [], []⟩ := by
  obtain ⟨p, hp, ht⟩ := h.payload
  rw [envelopeParser]
  simp only [h.parsed, h.type, hp, ht, Option.getD_some, Option.isSome_some, if_true]
  by_cases hs : status = 0
  · subst hs
    rfl
  · simp only [decide_eq_false hs, Bool.false_and, Bool.false_eq_true, if_false, if_neg hs]

/-- The required fields of a parsed request are there to be copied. -/
theorem Handled.envelope_eq (h : Handled proto task data sr status out) :
    envelope sr status out
      = { sn := sr.sn, sessid := sr.sessid, serviceType := sr.serviceType,
          status := some (if status = 0 then 0 else -1), payload := some out } := by
  have hinit := proto.request.parse_initialized data sr h.parsed
  obtain ⟨sessid, serviceType, sn, payload⟩ := sr
  simp only [Wire.Message.isInitialized, Bool.and_eq_true, Option.isSome_iff_exists] at hinit
  obtain ⟨⟨⟨_, hsessid⟩, _, htype⟩, _, hsn⟩ := hinit
  -- the accessors of unset fields would give defaults; none of the three is unset
  subst hsessid htype hsn
  rfl

/-- An envelope made from a parsed request parses, and answers it. -/
theorem Handled.answers (h : Handled proto task data sr status out) :
    Answers proto sr status out (proto.response.serialize (envelope sr status out)) := by
  refine ⟨envelope sr status out, proto.response.parse_of_initialized rfl, ?_⟩
  rw [h.envelope_eq]
  exact ⟨rfl, rfl, rfl, rfl, rfl⟩

/-- No body is no answer: four fields are required. -/
theorem not_answers_nil : ¬ Answers proto sr status out [] := by
  rintro ⟨srp, hparse, _⟩
  rw [proto.response.parse_nil rfl] at hparse
  cases hparse

/-- `do_work` on such a request dispatches one frame to the requester's id, whatever the outcome. -/
theorem Handled.doWork_eq (h : Handled proto task data sr status out) {hd : Head}
    (hpick : pickResponser hd.cmd = some responser) (ht : b.innerTask responser = some task) (id : Bytes) :
    doWork proto b id hd data = [.fixToServer id (frame { hd with cmd := hd.cmd + 1 }
      (if status = 0 then proto.response.serialize (envelope sr status out) else []))] := by
  rw [doWork, hpick]
  simp only [parser_of_innerTask ht, h.envelopeParser_eq, Bool.false_eq_true, if_false, List.nil_append,
    response_of_innerTask ht]

end Envelope

/-- The reply to a request reaches one session: the body that `parser` wrote answers it, and `do_work` writes
    exactly one frame, with that body. -/
def Replies (proto : Proto) (b : Backends) (r : Registries) (rand : Nat → Nat) (responser : Responser)
    (id : Bytes) (hd : Head) (data : Bytes) (sr : ServiceRequest) (status : CInt) (out : Bytes) : Prop :=
  ∃ parsed, responser.parser proto b data = some parsed ∧
    Answers proto sr status out parsed.response ∧
    ∃ x, (r.perform rand (doWork proto b id hd data)).1
      = [(x, frame { hd with cmd := hd.cmd + 1 } parsed.response)]

/-- With a status other than `0`, `parser` writes nothing. -/
theorem Handled.not_replies {proto : Proto} {b : Backends} {r : Registries} {rand : Nat → Nat}
    {responser : Responser} {task : InnerTask} {id data out : Bytes} {hd : Head} {sr : ServiceRequest}
    {status : CInt} (h : Handled proto task data sr status out) (ht : b.innerTask responser = some task)
    (hstatus : status ≠ 0) : ¬ Replies proto b r rand responser id hd data sr status out := by
  rintro ⟨parsed, hparsed, hanswers, _⟩
  rw [parser_of_innerTask ht, h.envelopeParser_eq, if_neg hstatus] at hparsed
  cases hparsed
  exact not_answers_nil hanswers

/-- **When a request is answered.** For every request of the served type with a payload, and every synchronous
    outcome of the inner task. -/
theorem reply_envelope_iff (proto : Proto) (b : Backends) (r : Registries) (rand : Nat → Nat)
    (responser : Responser) (task : InnerTask) (id : Bytes) (hd : Head) (data : Bytes) (sr : ServiceRequest)
    (status : CInt) (out : Bytes) (hpick : pickResponser hd.cmd = some responser)
    (ht : b.innerTask responser = some task) (h : Handled proto task data sr status out) :
    Replies proto b r rand responser id hd data sr status out ↔
      status = 0 ∧ id ≠ [] ∧ ∃ x, r.peerMapClient.fixGet id = some x := by
  constructor
  · intro hr
    by_cases hstatus : status = 0
    · obtain ⟨_, _, _, x, hwrites⟩ := hr
      rw [h.doWork_eq hpick ht, Registries.perform_fixToServer] at hwrites
      by_cases hid : id = []
      · rw [if_pos hid] at hwrites
        cases hwrites
      · rw [if_neg hid, Registries.writeTo_eq_singleton] at hwrites
        exact ⟨hstatus, hid, x, hwrites.1⟩
    · -- a frame may be written, but its body is empty
      exact absurd hr (h.not_replies ht hstatus)
  · rintro ⟨hstatus, hid, x, hx⟩
    refine ⟨_, (parser_of_innerTask ht data).trans h.envelopeParser_eq, ?_, x, ?_⟩
    · rw [if_pos hstatus]
      exact h.answers
    · rw [h.doWork_eq hpick ht, Registries.perform_fixToServer, if_neg hid,
        Registries.writeTo_eq_singleton]
      exact ⟨hx, rfl⟩

/-! ### One request, on one registered session -/

/-- Slot `0` of a server, bound to session `0`. -/
def oneSession : Registries :=
  ⟨.empty, (PeerHandleMapForClient.empty.fixSet (ascii "server:10.0.0.1:9000")
    (slotId (ascii "server:10.0.0.1:9000") 0) (some 0)).2⟩

/-- Back ends whose tasks all end the same way. -/
def uniformBackends (status : CInt) (out : Bytes) : Backends :=
  { servicePackage := fun _ _ => some (⟨status, false⟩, out)
    group := fun _ _ => some (⟨status, false⟩, out)
    pythonFunc := fun _ _ => some (⟨status, false⟩, out)
    readJson := fun _ => .null
    getSession := fun _ => some []
    uuid := [] }

/-- A request to find groups nearby. -/
def nearRequest : ServiceRequest :=
  { sessid := some (ascii "s1"), serviceType := some 600, sn := some (ascii "n1")
    payload := some (Proto.wire.packet.serialize
      { type := some 27, groupLbsNearRequest := some { cid := some (ascii "7") } }) }

/-- The packet the inner task answers it with. -/
def nearResponse (status : CInt) (data : Bytes) : Bytes :=
  Proto.wire.packet.serialize
    { type := some 28
      groupLbsNearResponse := some { cid := some (ascii "7"), status := some status, data := some data } }

theorem nearRequest_handled (status : CInt) (out : Bytes) :
    Handled Proto.wire (uniformBackends status out).servicePackage
      (Proto.wire.request.serialize nearRequest) nearRequest status out :=
  ⟨Proto.wire.request.parse_of_initialized rfl, rfl, _, rfl, rfl⟩

/-- The near-by query succeeds. -/
theorem reply_envelope_near_found :
    Replies Proto.wire (uniformBackends 0 (nearResponse 0 (ascii "[]"))) oneSession (fun _ => 0) .serverService
      (slotId (ascii "server:10.0.0.1:9000") 0) ⟨0, 0, 200⟩ (Proto.wire.request.serialize nearRequest)
      nearRequest 0 (nearResponse 0 (ascii "[]")) :=
  (reply_envelope_iff _ _ _ _ _ _ _ _ _ _ _ _ rfl rfl (nearRequest_handled _ _)).mpr
    ⟨rfl, by decide, 0, by decide⟩

/-- The near-by query fails in the store, as it does when there is no connection to it: the error packet the
    task made never reaches the requester. -/
theorem reply_envelope_near_error :
    let out := nearResponse (-1) (ascii "connection error")
    let data := Proto.wire.request.serialize nearRequest
    Handled Proto.wire (uniformBackends (-1) out).servicePackage data nearRequest (-1) out ∧
      ¬ Replies Proto.wire (uniformBackends (-1) out) oneSession (fun _ => 0) .serverService
        (slotId (ascii "server:10.0.0.1:9000") 0) ⟨0, 0, 200⟩ data nearRequest (-1) out :=
  ⟨nearRequest_handled _ _, (nearRequest_handled _ _).not_replies rfl (by decide)⟩

/-! ## Load shedding -/

section Shedding

variable {proto : Proto} {b : Backends}

/-- Under the busy command nothing is dispatched, whatever the body is. -/
theorem doWork_busy {h : Head} (hcmd : h.cmd = busyCommand) (id data : Bytes) :
    doWork proto b id h data = [] := by
  have hpick : pickResponser h.cmd = some .servicePackageBusy := by rw [hcmd]; rfl
  rw [doWork, hpick]
  -- what the parser wrote, if anything, goes to a `response` that drops it
  cases hparse : proto.packet.parse data with
  | none => simp [Responser.parser, busyParser, hparse, Responser.response, ServiceResponseResult.fresh]
  | some packet =>
      simp [Responser.parser, busyParser, hparse, Responser.response, ServiceResponseResult.fresh]

/-- The busy packet for a request packet: the response type of its kind, the same client and type. -/
def BusyEcho (packet answer : ServicePacket) : Prop :=
  (packet.type = some 21 ∧ answer.type = some 22 ∧ ∃ rer, answer.replyResponse = some rer ∧
    rer.cid.getD [] = (packet.replyRequest.getD {}).cid.getD [] ∧
    rer.type.getD [] = (packet.replyRequest.getD {}).type.getD []) ∨
  (packet.type = some 23 ∧ answer.type = some 24 ∧ ∃ ptrs, answer.postTopicResponse = some ptrs ∧
    ptrs.cid.getD [] = (packet.postTopicRequest.getD {}).cid.getD [] ∧
    ptrs.type.getD [] = (packet.postTopicRequest.getD {}).type.getD [])

/-- A `ServiceRequest` under command 200, with a packet of one of the two kinds that can be shed. -/
structure SheddableRequest (proto : Proto) (m : MessageFormat) (sr : ServiceRequest) (packet : ServicePacket) :
    Prop where
  cmd     : m.cmd = 200
  parsed  : proto.request.parse m.payload = some sr
  type    : sr.serviceType = some serverServiceType
  payload : ∃ p, sr.payload = some p ∧ proto.packet.parse p = some packet
  kind    : packet.type = some 21 ∨ packet.type = some 23

/-- Popping the front message of `q` and handling it answers it: one frame of command 201 on session `x`,
    whose response has the request's session and serial number and carries the busy packet. -/
def AnsweredBusy (proto : Proto) (b : Backends) (r : Registries) (rand : Nat → Nat) (taskQueueMax : Nat)
    (q : TaskQueue) (x : SessPtr) (sr : ServiceRequest) (packet : ServicePacket) : Prop :=
  ∃ t, (q.tryPop taskQueueMax).1 = some t ∧
    ∃ hd body, (r.perform rand (doWork proto b t.id t.head t.data)).1 = [(x, frame hd body)] ∧
      hd.cmd = 201 ∧
      ∃ srp, proto.response.parse body = some srp ∧ srp.sn = sr.sn ∧ srp.sessid = sr.sessid ∧
        ∃ p, srp.payload = some p ∧ ∃ answer, proto.packet.parse p = some answer ∧ BusyEcho packet answer

/-- Handling a message that was popped over the limit writes nothing. -/
theorem shed_writes_nothing (r : Registries) (rand : Nat → Nat) {taskQueueMax : Nat} {q : TaskQueue}
    {m : MessageFormat} {ms : List MessageFormat} (hq : q.deque = m :: ms)
    (hfull : taskQueueMax < q.deque.length) {t : Task} (ht : (q.tryPop taskQueueMax).1 = some t) :
    (r.perform rand (doWork proto b t.id t.head t.data)).1 = [] := by
  have hcmd : t.head.cmd = busyCommand := by
    obtain ⟨deque, stop⟩ := q
    simp only at hq hfull
    subst hq
    rw [TaskQueue.tryPop_cons, if_pos hfull] at ht
    cases ht
    rfl
  rw [doWork_busy hcmd]
  rfl

theorem not_answeredBusy {r : Registries} {rand : Nat → Nat} {taskQueueMax : Nat} {q : TaskQueue}
    {m : MessageFormat} {ms : List MessageFormat} (hq : q.deque = m :: ms)
    (hfull : taskQueueMax < q.deque.length) (x : SessPtr) (sr : ServiceRequest) (packet : ServicePacket) :
    ¬ AnsweredBusy proto b r rand taskQueueMax q x sr packet := by
  rintro ⟨t, ht, hd, body, hwrites, _⟩
  rw [shed_writes_nothing r rand hq hfull ht] at hwrites
  cases hwrites

end Shedding

/-- **Nobody is told.** A request at the front of a queue over its limit, read on an outbound session that is
    still registered, is popped and handled without any answer. -/
theorem shed_request_unanswered (proto : Proto) (b : Backends) (r : Registries) (rand : Nat → Nat)
    (taskQueueMax : Nat) (q : TaskQueue) (m : MessageFormat) (ms : List MessageFormat) (x : SessPtr)
    (sr : ServiceRequest) (packet : ServicePacket) (hq : q.deque = m :: ms)
    (hfull : taskQueueMax < q.deque.length) (_ : SheddableRequest proto m sr packet)
    (_ : r.peerMapClient.fixGet m.remoteId = some x) :
    ¬ AnsweredBusy proto b r rand taskQueueMax q x sr packet :=
  not_answeredBusy hq hfull x sr packet

/-! ### A shed reply request -/

/-- A packet of type 21, as a client posts a reply. -/
def replyPacket : ServicePacket :=
  { type := some 21, replyRequest := some { cid := some (ascii "7"), type := some (ascii "bbs") } }

def replyServiceRequest : ServiceRequest :=
  { sessid := some (ascii "s1"), serviceType := some 600, sn := some (ascii "n1")
    payload := some (Proto.wire.packet.serialize replyPacket) }

/-- The request as it waits in the queue, read on slot `0`. -/
def replyMessage : MessageFormat :=
  { MessageFormat.new with
    body := Proto.wire.request.serialize replyServiceRequest
    bodyLength := (Proto.wire.request.serialize replyServiceRequest).length
    cmd := 200
    remoteId := slotId (ascii "server:10.0.0.1:9000") 0
    head_size := MessageFormat.new.head_size }

theorem replyMessage_sheddable :
    SheddableRequest Proto.wire replyMessage replyServiceRequest replyPacket where
  cmd := rfl
  parsed := by
    rw [show replyMessage.payload = Proto.wire.request.serialize replyServiceRequest from List.take_length]
    exact Proto.wire.request.parse_of_initialized rfl
  type := rfl
  payload := ⟨_, rfl, Proto.wire.packet.parse_of_initialized rfl⟩
  kind := Or.inl rfl

/-- With a limit of one, the first of two queued requests is shed. -/
theorem shed_request_unanswered_reply :
    ¬ AnsweredBusy Proto.wire (uniformBackends 0 []) oneSession (fun _ => 0) 1
      ⟨[replyMessage, replyMessage], false⟩ 0 replyServiceRequest replyPacket :=
  shed_request_unanswered _ _ _ _ 1 _ _ _ 0 _ _ rfl (by decide) replyMessage_sheddable (by decide)

/-- The same request satisfies everything an answer is promised for, and nothing is written. -/
theorem shed_reply_request_lost :
    SheddableRequest Proto.wire replyMessage replyServiceRequest replyPacket ∧
      oneSession.peerMapClient.fixGet replyMessage.remoteId = some 0 ∧
      ¬ AnsweredBusy Proto.wire (uniformBackends 0 []) oneSession (fun _ => 0) 0
        ⟨[replyMessage], false⟩ 0 replyServiceRequest replyPacket :=
  ⟨replyMessage_sheddable, by decide, not_answeredBusy rfl (by decide) 0 _ _⟩

end BServer
