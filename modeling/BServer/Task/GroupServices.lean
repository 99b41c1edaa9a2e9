import BServer.Task.StatusZero

/-!
# `Task.GroupServices` — the two services for groups, compared

Group requests are served under command 200 by `service_package_responser`, and under 7818 by
`group_responser`, each with its own copy of the two request handlers. The copies compute the same packet from
the same answer of the store. The dispatch in front of them does not agree: `group_responser` means to turn away
what is neither of the two types, and its guard turns away everything (`GroupResponser.parser_eq`), so the
handlers behind it are never reached.

`group_services_agree_iff` is exact: the two services agree on the payloads that neither of them takes for a
group request.
-/

namespace BServer

open Bytes

/-- On the payload `p`: for a group request, whatever the store answers, both services end with the same status
    and the same serialised packet; any other packet is turned away by `group_responser`, which asks nothing. -/
def GroupServicesAgree (proto : Proto) (p : Bytes) : Prop :=
  ∀ (up : Upstream) (w : WorkerCaches) (packet : ServicePacket), proto.packet.parse p = some packet →
    (∀ q answer, packet.lookup = some q → (w.query up q).outcome = .ok answer →
      ∃ res res' out, (GroupResponser.parser proto up w p).outcome = .ok (res, out) ∧
        (ServicePackageResponser.parser proto up w p).outcome = .ok (res', out) ∧ res.status = res'.status) ∧
    (packet.type.getD 0 ≠ 27 → packet.type.getD 0 ≠ 29 →
      ∃ res out, (GroupResponser.parser proto up w p).outcome = .ok (res, out) ∧ res.status = -1 ∧
        (GroupResponser.parser proto up w p).calls = [])

/-- A client that answers every query, without error. -/
def connectedWorker : WorkerCaches := ⟨none, some ⟨[(ascii "10.0.0.9", 27017)]⟩⟩

/-- **They never agree on a group request.** One service answers it, with status `0`, where the store does; the
    other turns it away. -/
theorem not_groupServicesAgree {proto : Proto} {p : Bytes} {packet : ServicePacket} {q : StoreQuery}
    (hparse : proto.packet.parse p = some packet) (hq : packet.lookup = some q) :
    ¬ GroupServicesAgree proto p := by
  intro h
  have hanswer : (connectedWorker.query silentUpstream q).outcome = .ok (ascii "[]", []) := by
    rw [WorkerCaches.query_set rfl]
    rfl
  obtain ⟨res, res', out, hgroup, hservice, hstatus⟩ :=
    (h silentUpstream connectedWorker packet hparse).1 q _ hq hanswer
  rw [GroupResponser.parser_eq] at hgroup
  obtain ⟨finish, heq, hfinish⟩ := parser_lookup silentUpstream connectedWorker hparse hq
  rw [heq, Traced.outcome_bind_ok hanswer, Traced.outcome_pure, (hfinish _).1] at hservice
  have hres : resultOf false = res := (Prod.mk.inj (Except.ok.inj hgroup)).1
  have hres' : resultOf true = res' := (Prod.mk.inj (Except.ok.inj hservice)).1
  rw [← hres, ← hres'] at hstatus
  exact absurd hstatus (by decide)

/-- **When the two services agree.** On every payload that is no packet of type 27 or 29, and on no other. -/
theorem group_services_agree_iff (proto : Proto) (p : Bytes) :
    GroupServicesAgree proto p ↔
      ∀ packet, proto.packet.parse p = some packet → packet.type.getD 0 ≠ 27 ∧ packet.type.getD 0 ≠ 29 := by
  constructor
  · intro h packet hparse
    constructor
    · intro ht
      have hq : packet.lookup ≠ none := by
        rw [ServicePacket.lookup, if_pos ht]
        exact Option.some_ne_none _
      obtain ⟨q, hq⟩ := Option.ne_none_iff_exists'.mp hq
      exact not_groupServicesAgree hparse hq h
    · intro ht
      have hq : packet.lookup ≠ none := by
        rw [ServicePacket.lookup, ht]
        exact Option.some_ne_none _
      obtain ⟨q, hq⟩ := Option.ne_none_iff_exists'.mp hq
      exact not_groupServicesAgree hparse hq h
  · intro h up w packet hparse
    constructor
    · -- no packet here stands for a query
      intro q answer hq
      obtain ⟨h27, h29⟩ := h packet hparse
      rw [lookup_eq_none h27 h29] at hq
      cases hq
    · intro _ _
      rw [GroupResponser.parser_eq]
      exact ⟨_, _, rfl, rfl, rfl⟩

/-- A request for the groups near a place, which one service answers and the other turns away. -/
theorem group_services_differ_near :
    ¬ GroupServicesAgree Proto.wire (Proto.wire.packet.serialize nearPacket) :=
  not_groupServicesAgree nearPacket_parses rfl

end BServer
