import Mathlib.Data.List.Forall2
import BServer.Task.Responser

/-!
# `Task.PushFanOut` — one push, many frames

Command 6666 carries a JSON body that names a client, a service and some data. The responser looks up the
sessions of the client and sends each of them, through the server that holds it, a `ServiceResponse` around one
packet of type 26.

`FansOut` is what that is for: a frame for each session, in order, that its receiver can parse. The loop does
send a frame for each session (`doWork_push`), and sends nothing for any other body (`doWork_no_push`). But the
response it mutates and serialises in every turn never gets its `status`, which is a required field, so no
receiver parses any of the frames (`pushTo_unparsable`). What the server does is what it is for exactly when
there is nobody to send to (`push_fan_out_iff`).
-/

namespace BServer

open Bytes

/-- A JSON object with a non-empty string under `key`. -/
def Json.Holds (v : Json) (key s : Bytes) : Prop :=
  s ≠ [] ∧ ∃ ms, v = .object ms ∧ ms.lookup key = some (.string s)

theorem Json.stringMember_eq {v : Json} {key s : Bytes} (h : v.Holds key s) : v.stringMember key = some s := by
  obtain ⟨_, ms, rfl, hl⟩ := h
  cases ms with
  | nil => cases hl
  | cons m ms =>
      have hpos : (object (m :: ms)).size > 0 := Nat.succ_pos _
      simp only [stringMember, if_pos hpos, hl]

/-- A non-empty answer is the string under that key. -/
theorem Json.holds_of_stringMember {v : Json} {key s : Bytes} (hs : s ≠ []) (h : v.stringMember key = some s) :
    v.Holds key s := by
  have hnil : some [] ≠ some s := fun he => hs (Option.some.inj he).symm
  unfold stringMember at h
  split at h
  · cases v with
    | object ms =>
        simp only at h
        split at h
        · next t ht =>
            cases h
            exact ⟨hs, ms, rfl, ht⟩
        · exact absurd h hnil
    | null => cases h
    | int => cases h
    | real => cases h
    | string => cases h
    | boolean => cases h
    | array => cases h
  · exact absurd h hnil

/-- A body asks for a push: all three members are non-empty strings. -/
structure Pushes (v : Json) (cid serviceId data : Bytes) : Prop where
  cid       : v.Holds (ascii "cid") cid
  serviceId : v.Holds (ascii "service_id") serviceId
  data      : v.Holds (ascii "data") data

section

variable {proto : Proto} {b : Backends} {h : Head} {id body cid serviceId data : Bytes}

/-! ## What is dispatched -/

theorem doWork_pushCommand (hcmd : h.cmd = 6666) :
    doWork proto b id h body
      = match serverServiceResponseParser proto b body with
        | none => []
        | some parsed => if parsed.result.async then parsed.dispatches
            else parsed.dispatches ++ Responser.serverServiceResponse.response id h parsed.response := by
  have hpick : pickResponser h.cmd = some .serverServiceResponse := by rw [hcmd]; rfl
  rw [doWork, hpick]
  rfl

/-- A frame for each session of the client. -/
theorem doWork_push (hcmd : h.cmd = 6666) (hp : Pushes (b.readJson body) cid serviceId data)
    {table : List (Bytes × Sess)} (ht : b.getSession cid = some table) :
    doWork proto b id h body
      = table.map (pushTo proto b.uuid (proto.packet.serialize (pushedPacket cid serviceId data))) := by
  have hne : ∀ {s : Bytes}, s ≠ [] → s.isEmpty = false := fun hs => by simpa using hs
  rw [doWork_pushCommand hcmd, serverServiceResponseParser]
  simp only [ServiceRequestJsonData.cid, ServiceRequestJsonData.serviceId, ServiceRequestJsonData.data,
    Json.stringMember_eq hp.cid, Json.stringMember_eq hp.serviceId, Json.stringMember_eq hp.data,
    Option.bind_some, hne hp.cid.1, hne hp.serviceId.1, hne hp.data.1, ht, Option.map_some, Bool.or_self,
    Bool.false_eq_true, if_false, if_true]

/-- Any other body is dropped. -/
theorem doWork_no_push (hcmd : h.cmd = 6666)
    (hn : ∀ cid serviceId data, ¬ Pushes (b.readJson body) cid serviceId data) :
    doWork proto b id h body = [] := by
  rw [doWork_pushCommand hcmd, serverServiceResponseParser]
  cases hc : (b.readJson body).stringMember (ascii "cid") with
  | none => simp [ServiceRequestJsonData.cid, hc]
  | some cid =>
      cases hs : (b.readJson body).stringMember (ascii "service_id") with
      | none => simp [ServiceRequestJsonData.cid, ServiceRequestJsonData.serviceId, hc, hs]
      | some serviceId =>
          cases hd : (b.readJson body).stringMember (ascii "data") with
          | none =>
              simp [ServiceRequestJsonData.cid, ServiceRequestJsonData.serviceId,
                ServiceRequestJsonData.data, hc, hs, hd]
          | some data =>
              -- one of the three is empty, or the body would ask for a push
              have hempty : (cid.isEmpty || serviceId.isEmpty || data.isEmpty) = true := by
                by_contra hne
                simp only [Bool.or_eq_true, List.isEmpty_iff, not_or] at hne
                exact hn cid serviceId data ⟨Json.holds_of_stringMember hne.1.1 hc,
                  Json.holds_of_stringMember hne.1.2 hs, Json.holds_of_stringMember hne.2 hd⟩
              simp only [ServiceRequestJsonData.cid, ServiceRequestJsonData.serviceId,
                ServiceRequestJsonData.data, hc, hs, hd, Option.bind_some, hempty, if_true]

/-! ## What it is for -/

/-- A frame of command 6667 for one session, on the connections of the server that holds it: the receiver
    parses a response with this session, the common serial number `sn`, and the packet of type 26 in it. -/
def ReachesSession (proto : Proto) (sn cid serviceId data : Bytes) (entry : Bytes × Sess) (d : Dispatch) :
    Prop :=
  ∃ hd out, d = .toServer (ascii "server:" ++ entry.2.serverAddr) (frame hd out) ∧ hd.cmd = 6667 ∧
    ∃ srp, proto.response.parse out = some srp ∧ srp.sessid = some entry.1 ∧ srp.sn = some sn ∧
      srp.serviceType = some serverServiceType ∧
      ∃ p, srp.payload = some p ∧ ∃ packet, proto.packet.parse p = some packet ∧ packet.type = some 26 ∧
        ∃ psr, packet.publicServiceResponse = some psr ∧
          psr.cid = some cid ∧ psr.serviceId = some serviceId ∧ psr.data = some data

/-- The frames dispatched reach the sessions of the table, one each. -/
def FansOut (proto : Proto) (cid serviceId data : Bytes) (table : List (Bytes × Sess))
    (ds : List Dispatch) : Prop :=
  ∃ sn, List.Forall₂ (ReachesSession proto sn cid serviceId data) table ds

/-- A push is delivered to every session of its client, and any other body is dropped. -/
def PushDelivered (proto : Proto) (b : Backends) (id : Bytes) (h : Head) (body : Bytes) : Prop :=
  (∀ cid serviceId data table, Pushes (b.readJson body) cid serviceId data →
    b.getSession cid = some table → FansOut proto cid serviceId data table (doWork proto b id h body)) ∧
  ((∀ cid serviceId data, ¬ Pushes (b.readJson body) cid serviceId data) → doWork proto b id h body = [])

/-- **The missing status.** No receiver parses a frame of the loop. -/
theorem pushTo_unparsable (sn payload : Bytes) (entry : Bytes × Sess) {sn' : Bytes} :
    ¬ ReachesSession proto sn' cid serviceId data entry (pushTo proto sn payload entry) := by
  rintro ⟨hd, out, hout, _, srp, hparse, _⟩
  have hbody : proto.response.serialize (pushedResponse sn payload entry.1) = out := by
    have hframe := (Dispatch.toServer.inj hout).2
    have hb := congrArg MessageFormat.body hframe
    rw [frame, frame, MessageFormat.framed_body, MessageFormat.framed_body] at hb
    exact (List.append_inj hb rfl).2
  -- four of the five fields are set, and `status` is required
  rw [← hbody, proto.response.parse_of_missing rfl] at hparse
  cases hparse

theorem not_fansOut (hcmd : h.cmd = 6666) (hp : Pushes (b.readJson body) cid serviceId data)
    {entry : Bytes × Sess} {table : List (Bytes × Sess)} (ht : b.getSession cid = some (entry :: table)) :
    ¬ FansOut proto cid serviceId data (entry :: table) (doWork proto b id h body) := by
  rintro ⟨sn, hall⟩
  rw [doWork_push hcmd hp ht, List.map_cons] at hall
  exact pushTo_unparsable _ _ entry (List.forall₂_cons.mp hall).1

end

/-- **When a push is delivered.** For every body and every session table: exactly when no session of its client
    is known, or the body asks for no push. -/
theorem push_fan_out_iff (proto : Proto) (b : Backends) (id : Bytes) (h : Head) (body : Bytes)
    (hcmd : h.cmd = 6666) :
    PushDelivered proto b id h body ↔
      ∀ cid serviceId data table, Pushes (b.readJson body) cid serviceId data →
        b.getSession cid = some table → table = [] := by
  constructor
  · rintro ⟨hfan, _⟩ cid serviceId data table hp ht
    cases table with
    | nil => rfl
    -- one entry is enough: its frame is the first the loop dispatches
    | cons entry table => exact absurd (hfan cid serviceId data _ hp ht) (not_fansOut hcmd hp ht)
  · intro hempty
    refine ⟨?_, doWork_no_push hcmd⟩
    intro cid serviceId data table hp ht
    rw [doWork_push hcmd hp ht, hempty cid serviceId data table hp ht]
    exact ⟨[], .nil⟩

/-! ### A push to one session -/

def pushBody : Bytes := ascii "\x7b\"cid\":\"7\",\"data\":\"hi\",\"service_id\":\"9\"\x7d"

/-- A reader that knows this body, and a session table for every client. -/
def pushBackends (table : List (Bytes × Sess)) : Backends :=
  { servicePackage := fun _ _ => none
    group := fun _ _ => none
    pythonFunc := fun _ _ => none
    readJson := fun body =>
      if body = pushBody then .object [(ascii "cid", .string (ascii "7")),
        (ascii "data", .string (ascii "hi")), (ascii "service_id", .string (ascii "9"))]
      else .null
    getSession := fun _ => some table
    uuid := ascii "1b4e28ba-2fa1-11d2-883f-0016d3cca427" }

theorem pushBody_pushes (table : List (Bytes × Sess)) :
    Pushes ((pushBackends table).readJson pushBody) (ascii "7") (ascii "9") (ascii "hi") :=
  have hread : (pushBackends table).readJson pushBody = .object [(ascii "cid", .string (ascii "7")),
      (ascii "data", .string (ascii "hi")), (ascii "service_id", .string (ascii "9"))] := by
    simp only [pushBackends, if_true]
  ⟨⟨by decide, _, hread, rfl⟩, ⟨by decide, _, hread, rfl⟩, ⟨by decide, _, hread, rfl⟩⟩

/-- Without sessions there is nothing to deliver. -/
theorem push_fan_out_nobody : PushDelivered Proto.wire (pushBackends []) [] ⟨0, 0, 6666⟩ pushBody :=
  (push_fan_out_iff Proto.wire (pushBackends []) [] ⟨0, 0, 6666⟩ pushBody rfl).mpr
    (fun _ _ _ _ _ ht => (Option.some.inj ht).symm)

/-- Client 7 has one session, and the frame sent to its server is no response. -/
theorem push_to_one_session_lost :
    let table := [(ascii "s1", ⟨ascii "10.0.0.1:9000"⟩)]
    Pushes ((pushBackends table).readJson pushBody) (ascii "7") (ascii "9") (ascii "hi") ∧
      (pushBackends table).getSession (ascii "7") = some table ∧
      ¬ PushDelivered Proto.wire (pushBackends table) [] ⟨0, 0, 6666⟩ pushBody := by
  refine ⟨pushBody_pushes _, rfl, ?_⟩
  rintro ⟨hfan, _⟩
  exact not_fansOut rfl (pushBody_pushes _) rfl (hfan _ _ _ _ (pushBody_pushes _) rfl)

end BServer
