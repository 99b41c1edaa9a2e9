import BServer.Task.Worker

/-!
# `Task.AnyEncoding` — one request, in whatever encoding

The peers of this server need not serialise like the generated classes do. Fields may come in another order, a
newer peer adds fields this server has never heard of, and that in the envelope, in the packet it carries as its
payload, and in the request inside the packet. `EncodedBy` says of a byte string that it is an encoding of a
message in this wide sense.

A worker does not notice (`any_encoding_is_answered_alike`): for its whole life, what it asks of the outside and
what it dispatches are the same as if every request had been written by the generated classes.
-/

namespace BServer

open Bytes
open Wire (Field Schema encode)

/-! ## Encodings -/

/-- `b` encodes the packet: the fields of the packet in any order, and any others a key has room for. -/
def ServicePacket.EncodedBy (m : ServicePacket) (b : Bytes) : Prop :=
  ∃ ws, b = encode ws ∧ (∀ w ∈ ws, w.Legal) ∧ ServicePacket.schema.Same ws (ServicePacket.schema.fields m)

/-- `b` encodes the envelope. -/
def ServiceRequest.EncodedBy (sr : ServiceRequest) (b : Bytes) : Prop :=
  ∃ ws, b = encode ws ∧ (∀ w ∈ ws, w.Legal) ∧ ServiceRequest.schema.Same ws (ServiceRequest.schema.fields sr)

theorem ServicePacket.EncodedBy.parse {m : ServicePacket} {b : Bytes} (h : m.EncodedBy b) :
    Proto.wire.packet.parse b = Proto.wire.packet.parse (Proto.wire.packet.serialize m) := by
  obtain ⟨ws, rfl, _, hsame⟩ := h
  exact hsame.parse_eq ServicePacket.lossless rfl ServicePacket.apart

theorem ServiceRequest.EncodedBy.parse {sr : ServiceRequest} {b : Bytes} (h : sr.EncodedBy b) :
    Proto.wire.request.parse b = Proto.wire.request.parse (Proto.wire.request.serialize sr) := by
  obtain ⟨ws, rfl, _, hsame⟩ := h
  exact hsame.parse_eq ServiceRequest.lossless rfl ServiceRequest.apart

/-- The commands whose body is an envelope. -/
def Enveloped (cmd : CInt) : Prop := cmd = 200 ∨ cmd = 7818 ∨ cmd = 8000

/-- A body under a command, and the one the generated classes would have written. -/
inductive SameBody (cmd : CInt) : Bytes → Bytes → Prop
  /-- a body that is taken as it is -/
  | refl (b : Bytes) : SameBody cmd b b
  /-- an envelope around any payload -/
  | envelope (hcmd : Enveloped cmd) {sr : ServiceRequest} {b : Bytes} (h : sr.EncodedBy b) :
      SameBody cmd b (Proto.wire.request.serialize sr)
  /-- an envelope around a packet -/
  | request (hcmd : Enveloped cmd) (sr : ServiceRequest) {m : ServicePacket} {p b : Bytes} (hp : m.EncodedBy p)
      (h : ({ sr with payload := some p } : ServiceRequest).EncodedBy b) :
      SameBody cmd b (Proto.wire.request.serialize { sr with payload := some (Proto.wire.packet.serialize m) })
  /-- a packet by itself, for the busy responser -/
  | packet (hcmd : cmd = 1010) {m : ServicePacket} {b : Bytes} (h : m.EncodedBy b) :
      SameBody cmd b (Proto.wire.packet.serialize m)

/-- The same message of the same session; only the length in the header tells the encodings apart. -/
structure SameTask (t t' : Task) : Prop where
  id    : t.id = t'.id
  magic : t.head.magic = t'.head.magic
  cmd   : t.head.cmd = t'.head.cmd
  data  : SameBody t.head.cmd t.data t'.data

/-! ## Nobody looks at the bytes -/

section Parsers

variable {proto : Proto} {up : Upstream} {w : WorkerCaches} {b b' : Bytes}

theorem ServicePackageResponser.parser_congr (h : proto.packet.parse b = proto.packet.parse b') :
    ServicePackageResponser.parser proto up w b = ServicePackageResponser.parser proto up w b' := by
  rw [ServicePackageResponser.parser, ServicePackageResponser.parser, h]

theorem PythonFuncServiceResponser.parser_congr (h : proto.packet.parse b = proto.packet.parse b') :
    PythonFuncServiceResponser.parser proto up b = PythonFuncServiceResponser.parser proto up b' := by
  rw [PythonFuncServiceResponser.parser, PythonFuncServiceResponser.parser, h]

/-- An envelope, to a task that handles two payloads alike. -/
theorem envelopeHandler_congr {task : Bytes → Handler (ServiceResponseResult × Bytes)} {sr : ServiceRequest}
    {p p' : Bytes} (htask : task p = task p')
    (h : proto.request.parse b = proto.request.parse (proto.request.serialize { sr with payload := some p }))
    (h' : proto.request.parse b'
      = proto.request.parse (proto.request.serialize { sr with payload := some p' })) :
    envelopeHandler proto task b = envelopeHandler proto task b' := by
  rw [envelopeHandler, envelopeHandler, h, h', proto.request.parse_serialize, proto.request.parse_serialize]
  -- the payload is not a required field
  by_cases hinit : Wire.Message.isInitialized sr = true
  · have hp : ∀ q : Bytes, Wire.Message.isInitialized ({ sr with payload := some q } : ServiceRequest) = true :=
      fun _ => hinit
    simp only [hp, if_true]
    split
    · simp only [Option.isSome_some, if_true, Option.getD_some, htask]
      rfl
    · rfl
  · have hp : ∀ q : Bytes, ¬ Wire.Message.isInitialized ({ sr with payload := some q } : ServiceRequest) = true :=
      fun _ => hinit
    simp only [hp]
    rfl

end Parsers

/-- The tasks inside the envelopes, each a function of the packet that was parsed. -/
theorem handle_congr {responser : Responser} {up : Upstream} {w : WorkerCaches} {sr : ServiceRequest}
    {p p' b b' : Bytes}
    (hresponser : responser = .serverService ∨ responser = .groupService ∨ responser = .pythonService)
    (hp : Proto.wire.packet.parse p = Proto.wire.packet.parse p')
    (h : Proto.wire.request.parse b
      = Proto.wire.request.parse (Proto.wire.request.serialize { sr with payload := some p }))
    (h' : Proto.wire.request.parse b'
      = Proto.wire.request.parse (Proto.wire.request.serialize { sr with payload := some p' })) :
    responser.handle Proto.wire up w b = responser.handle Proto.wire up w b' := by
  rcases hresponser with rfl | rfl | rfl
  · exact envelopeHandler_congr (ServicePackageResponser.parser_congr hp) h h'
  · refine envelopeHandler_congr ?_ h h'
    rw [GroupResponser.parser_eq, GroupResponser.parser_eq]
  · exact envelopeHandler_congr (PythonFuncServiceResponser.parser_congr hp) h h'

theorem pickResponser_enveloped {cmd : CInt} {responser : Responser} (hcmd : Enveloped cmd)
    (h : pickResponser cmd = some responser) :
    responser = .serverService ∨ responser = .groupService ∨ responser = .pythonService := by
  rcases hcmd with rfl | rfl | rfl
  · exact Or.inl (Option.some.inj h).symm
  · exact Or.inr (Or.inl (Option.some.inj h).symm)
  · exact Or.inr (Or.inr (Option.some.inj h).symm)

/-- The busy responser takes the packet as it is parsed. -/
theorem busyParser_congr {proto : Proto} {b b' : Bytes} (h : proto.packet.parse b = proto.packet.parse b') :
    busyParser proto b = busyParser proto b' := by
  rw [busyParser, busyParser, h]

section Work

variable {up : Upstream} {w : WorkerCaches}

theorem handle_sameBody {cmd : CInt} {b b' : Bytes} {responser : Responser} (h : SameBody cmd b b')
    (hpick : pickResponser cmd = some responser) :
    responser.handle Proto.wire up w b = responser.handle Proto.wire up w b' := by
  cases h with
  | refl => rfl
  | @envelope hcmd sr b h =>
      rcases pickResponser_enveloped hcmd hpick with rfl | rfl | rfl
      all_goals
        show envelopeHandler _ _ _ = envelopeHandler _ _ _
        rw [envelopeHandler, envelopeHandler, h.parse]
  | request hcmd sr hp h =>
      exact handle_congr (pickResponser_enveloped hcmd hpick) hp.parse h.parse rfl
  | packet hcmd h =>
      subst hcmd
      cases hpick
      simp only [Responser.handle, busyParser_congr h.parse]

/-- The reply frame announces the length of the reply. -/
theorem response_congr {t t' : Task} (h : SameTask t t') (responser : Responser) (data : Bytes) :
    responser.response t.id t.head data = responser.response t'.id t'.head data := by
  have hframe : frame { t.head with cmd := t.head.cmd + 1 } data
      = frame { t'.head with cmd := t'.head.cmd + 1 } data := by
    simp only [frame, MessageFormat.framed, MessageFormat.encodeHeader, MessageFormat.headBytes, h.magic, h.cmd]
  cases responser with
  | serverService => simp only [Responser.response, hframe, h.id]
  | groupService => simp only [Responser.response, hframe, h.id]
  | pythonService => simp only [Responser.response, hframe, h.id]
  | serverServiceResponse => rfl
  | servicePackageBusy => rfl

theorem doWork_sameTask {t t' : Task} (h : SameTask t t') :
    w.doWork Proto.wire up t = w.doWork Proto.wire up t' := by
  rw [WorkerCaches.doWork, WorkerCaches.doWork, ← h.cmd]
  cases hpick : pickResponser t.head.cmd with
  | none => rfl
  | some responser =>
      show caught _ = caught _
      rw [handle_sameBody h.data hpick]
      simp only [response_congr h]

end Work

/-- **Any encoding will do.** However the requests of a worker's life were encoded, by whichever peers: what it
    asks of the outside, what it dispatches and how it ends are those of a worker that was sent what the generated
    classes write. -/
theorem any_encoding_is_answered_alike (w : WorkerCaches) (ts ts' : List (Upstream × Task))
    (h : List.Forall₂ (fun a b => a.1 = b.1 ∧ SameTask a.2 b.2) ts ts') :
    w.work Proto.wire ts = w.work Proto.wire ts' := by
  induction h with
  | nil => rfl
  | @cons a b ts ts' hab _ ih =>
      obtain ⟨up, t⟩ := a
      obtain ⟨up', t'⟩ := b
      obtain ⟨rfl, ht⟩ := hab
      rw [WorkerCaches.work, WorkerCaches.work, doWork_sameTask ht, ih]

/-! ### A newer peer -/

def talk : PublicServiceRequest := { cid := some (ascii "u1"), data := some (ascii "hi") }

def talkPacket : ServicePacket := { type := some 25, publicServiceRequest := some talk }

def talkEnvelope : ServiceRequest := { sessid := some [], serviceType := some 600, sn := some (ascii "7") }

/-- The same with fields of its own at every level, and backwards. -/
def newerTalk : List Field :=
  [⟨3, .delimited (ascii "hi")⟩, ⟨7, .varint 1⟩, ⟨1, .delimited (ascii "u1")⟩]

def newerPacket : List Field := [⟨6, .delimited (encode newerTalk)⟩, ⟨40, .fixed64 0⟩, ⟨1, .varint 25⟩]

def newerEnvelope : List Field :=
  [⟨4, .delimited (encode newerPacket)⟩, ⟨9, .varint 3⟩, ⟨3, .delimited (ascii "7")⟩, ⟨2, .varint 600⟩,
    ⟨1, .delimited []⟩]

theorem newerPacket_legal : ∀ w ∈ newerPacket, w.Legal := by
  simp [newerPacket, Field.Legal, encode, newerTalk, Wire.putField, Wire.putVarint, ascii]

theorem newerEnvelope_legal : ∀ w ∈ newerEnvelope, w.Legal := by
  simp [newerEnvelope, newerPacket, Field.Legal, encode, newerTalk, Wire.putField, Wire.putVarint, Wire.putFixed64,
    ascii]

theorem newerPacket_encodes : talkPacket.EncodedBy (encode newerPacket) := by
  have htalk : PublicServiceRequest.schema.Same newerTalk (PublicServiceRequest.schema.fields talk) := by
    apply Schema.Same.of_values
    decide
  have hnewer : ∀ w ∈ newerTalk, w.Legal := by simp [newerTalk, Field.Legal, ascii]
  have hwritten : ∀ w ∈ PublicServiceRequest.schema.fields talk, w.Legal := by
    simp [Schema.fields, PublicServiceRequest.schema, Wire.FieldSpec.written, talk, Field.Legal, Wire.Kind.bytes,
      ascii]
  have hinner :=
    Wire.Kind.Same.of_schema PublicServiceRequest.lossless PublicServiceRequest.apart hnewer hwritten htalk
  have hmem := List.mem_of_find?_eq_some (p := fun f : Wire.FieldSpec ServicePacket => f.number = 6)
    (l := ServicePacket.schema) rfl
  refine ⟨newerPacket, rfl, newerPacket_legal, ?_⟩
  apply Schema.Same.of_inner ServicePacket.lossless.nodup hmem rfl rfl hinner
  decide

theorem newerEnvelope_encodes :
    ({ talkEnvelope with payload := some (encode newerPacket) } : ServiceRequest).EncodedBy
      (encode newerEnvelope) := by
  refine ⟨newerEnvelope, rfl, newerEnvelope_legal, Schema.Same.of_values ?_⟩
  simp only [ServiceRequest.schema, List.forall_mem_cons]
  exact ⟨rfl, rfl, rfl, rfl, fun f hf => by cases hf⟩

theorem any_encoding_is_answered_alike_newer :
    (WorkerCaches.mk none none).work Proto.wire
        [(silentUpstream, ⟨encode newerEnvelope, ⟨0, 48, 200⟩, ascii "server:10.0.0.1:9000:0"⟩)]
      = (WorkerCaches.mk none none).work Proto.wire
          [(silentUpstream,
            ⟨Proto.wire.request.serialize
              { talkEnvelope with payload := some (Proto.wire.packet.serialize talkPacket) },
              ⟨0, 34, 200⟩, ascii "server:10.0.0.1:9000:0"⟩)] := by
  apply any_encoding_is_answered_alike
  refine .cons ⟨rfl, rfl, rfl, rfl, ?_⟩ .nil
  exact .request (Or.inl rfl) talkEnvelope newerPacket_encodes newerEnvelope_encodes

end BServer
