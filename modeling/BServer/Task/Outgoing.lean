import Mathlib.Data.List.Forall2
import BServer.Task.Worker

/-!
# `Task.Outgoing` — what handling a message sends out

A worker speaks to two sides: it asks a back end (HTTP, the store, the interpreter, the session cache), and it
dispatches frames. Both are bounded message by message, whatever the bytes of the message and whatever the back
ends answer.

* `Outgoing` — the frames: none, or one reply to the id the message came in under, or the pushes of one packet.
* `MayCall` — the calls: at most one, to the back end of the command. A message that was shed (1010), and a
  group request (7818), whose guard turns every packet away, cause none.

`work_outgoing` is both for a worker's whole life: what it dispatched is made up of what its messages account
for one by one, in order, and so is what it asked.
-/

namespace BServer

open Bytes

/-! ## Frames -/

/-- What one message may have dispatched. -/
inductive Outgoing (proto : Proto) (t : Task) : List Dispatch → Prop
  | nothing : Outgoing proto t []
  | reply (body : Bytes) (h : t.head.cmd = 200 ∨ t.head.cmd = 7818 ∨ t.head.cmd = 8000) :
      Outgoing proto t [.fixToServer t.id (frame { t.head with cmd := t.head.cmd + 1 } body)]
  | pushes (sn payload : Bytes) (table : List (Bytes × Sess)) (h : t.head.cmd = 6666) :
      Outgoing proto t (table.map (pushTo proto sn payload))

/-- What handling a request that was unwrapped leaves to `response`: the envelope dispatches nothing itself. -/
theorem envelopeParser_dispatches {proto : Proto} {task : InnerTask} {data : Bytes} {parsed : Parsed}
    (h : envelopeParser proto task data = some parsed) : parsed.dispatches = [] := by
  unfold envelopeParser at h
  split at h
  · cases h
    rfl
  · split at h
    · split at h
      · split at h
        · cases h
        · split at h
          · cases h
            rfl
          · cases h
            rfl
      · cases h
        rfl
    · cases h
      rfl

theorem busyParser_dispatches {proto : Proto} {data : Bytes} {parsed : Parsed}
    (h : busyParser proto data = some parsed) : parsed.dispatches = [] := by
  unfold busyParser at h
  split at h
  · cases h
    rfl
  · cases h
    rfl

/-- A push answers nobody, and dispatches the table of its client or nothing. -/
theorem pushParser_dispatches {proto : Proto} {b : Backends} {data : Bytes} {parsed : Parsed}
    (h : serverServiceResponseParser proto b data = some parsed) :
    parsed.result.async = true ∧
      ∃ (sn payload : Bytes) (table : List (Bytes × Sess)),
        parsed.dispatches = table.map (pushTo proto sn payload) := by
  simp only [serverServiceResponseParser, Option.bind_eq_some_iff] at h
  obtain ⟨cid, _, serviceId, _, responseData, _, h⟩ := h
  split at h
  · cases h
    exact ⟨rfl, [], [], [], rfl⟩
  · obtain ⟨sesss, _, rfl⟩ := Option.map_eq_some_iff.mp h
    exact ⟨rfl, _, _, _, rfl⟩

/-- The commands that choose a responser. -/
theorem pickResponser_cases {cmd : CInt} {responser : Responser} (h : pickResponser cmd = some responser) :
    cmd = 200 ∧ responser = .serverService ∨ cmd = 6666 ∧ responser = .serverServiceResponse ∨
      cmd = 7818 ∧ responser = .groupService ∨ cmd = 8000 ∧ responser = .pythonService ∨
      cmd = 1010 ∧ responser = .servicePackageBusy := by
  unfold pickResponser at h
  split at h
  · next hcmd =>
      cases h
      exact Or.inl ⟨hcmd, rfl⟩
  · split at h
    · next hcmd =>
        cases h
        exact Or.inr (Or.inl ⟨hcmd, rfl⟩)
    · split at h
      · next hcmd =>
          cases h
          exact Or.inr (Or.inr (Or.inl ⟨hcmd, rfl⟩))
      · split at h
        · next hcmd =>
            cases h
            exact Or.inr (Or.inr (Or.inr (Or.inl ⟨hcmd, rfl⟩)))
        · split at h
          · next hcmd =>
              cases h
              exact Or.inr (Or.inr (Or.inr (Or.inr ⟨hcmd, rfl⟩)))
          · cases h

section Messages

variable {proto : Proto} {up : Upstream} {w : WorkerCaches} {t : Task}

/-- **One message.** `do_work` dispatches what `Outgoing` allows it. -/
theorem doWork_outgoing (b : Backends) (id : Bytes) (h : Head) (data : Bytes) :
    Outgoing proto ⟨data, h, id⟩ (doWork proto b id h data) := by
  unfold doWork
  cases hpick : pickResponser h.cmd with
  | none => exact .nothing
  | some responser =>
      simp only
      cases hparse : responser.parser proto b data with
      | none => exact .nothing
      | some parsed =>
          simp only
          -- the responsers that reply dispatch nothing before
          have hreply : ∀ {rest : List Dispatch}, parsed.dispatches = [] → Outgoing proto ⟨data, h, id⟩ rest →
              Outgoing proto ⟨data, h, id⟩
                (if parsed.result.async = true then parsed.dispatches else parsed.dispatches ++ rest) := by
            intro rest hnil hrest
            rw [hnil, List.nil_append]
            split
            · exact .nothing
            · exact hrest
          rcases pickResponser_cases hpick with ⟨hcmd, rfl⟩ | ⟨hcmd, rfl⟩ | ⟨hcmd, rfl⟩ | ⟨hcmd, rfl⟩ | ⟨_, rfl⟩
          · exact hreply (envelopeParser_dispatches hparse) (.reply _ (Or.inl hcmd))
          · obtain ⟨hasync, sn, payload, table, hpush⟩ := pushParser_dispatches hparse
            rw [if_pos hasync, hpush]
            exact .pushes sn payload table hcmd
          · exact hreply (envelopeParser_dispatches hparse) (.reply _ (Or.inr (Or.inl hcmd)))
          · exact hreply (envelopeParser_dispatches hparse) (.reply _ (Or.inr (Or.inr hcmd)))
          · exact hreply (busyParser_dispatches hparse) .nothing

/-- The same for a worker that did not follow a null pointer. -/
theorem WorkerCaches.doWork_outgoing {ds : List Dispatch} (h : (w.doWork proto up t).outcome = .ok ds) :
    Outgoing proto t ds := by
  have havoids : (w.doWork proto up t).Avoids .nullDeref := by
    intro hnull
    rw [h] at hnull
    cases hnull
  have hsame := WorkerCaches.doWork_outcome havoids
  rw [h] at hsame
  cases hsame
  exact BServer.doWork_outgoing _ t.id t.head t.data

/-- A reply stands alone. -/
theorem Outgoing.eq_reply {ds : List Dispatch} (h : Outgoing proto t ds) {id : Bytes} {mf : MessageFormat}
    (hmem : Dispatch.fixToServer id mf ∈ ds) :
    ds = [.fixToServer id mf] ∧ id = t.id ∧
      (t.head.cmd = 200 ∨ t.head.cmd = 7818 ∨ t.head.cmd = 8000) ∧
      ∃ body, mf = frame { t.head with cmd := t.head.cmd + 1 } body := by
  cases h with
  | nothing => cases hmem
  | reply body h =>
      cases List.mem_singleton.mp hmem
      exact ⟨rfl, rfl, h, body, rfl⟩
  | pushes sn payload table h =>
      obtain ⟨entry, _, he⟩ := List.mem_map.mp hmem
      cases he

/-! ## Calls -/

/-- Which back end a command may ask. -/
def MayCall (cmd : CInt) : ExternalCall → Prop
  | .http _ | .store _ _ => cmd = 200
  | .python _            => cmd = 8000
  | .sessions _ _        => cmd = 6666

open Traced

theorem callsOnce_query {C : ExternalCall → Prop} (hC : ∀ client q, C (.store client q)) (q : StoreQuery) :
    (w.query up q).CallsOnce C := by
  cases hw : w.mongoClientCache with
  | none =>
      rw [WorkerCaches.query_unset hw]
      exact .pure _
  | some client =>
      rw [WorkerCaches.query_set hw]
      exact .call (hC client q) _

theorem callsOnce_getSession {C : ExternalCall → Prop} (hC : ∀ cache cid, C (.sessions cache cid))
    (cid : Bytes) : (w.getSession up cid).CallsOnce C := by
  unfold WorkerCaches.getSession
  cases w.sessCache with
  | none => exact .fault _
  | some cache => exact .silent_bind rfl fun _ => .call (hC _ _) _

theorem callsOnce_overHttp (packet : ServicePacket) :
    (ServicePackageResponser.overHttp up packet).CallsOnce (MayCall 200) := by
  have hperform : ∀ c, (perform up c).CallsOnce (MayCall 200) := fun c =>
    CallsOnce.call (show MayCall 200 (.http c) from rfl) _
  unfold ServicePackageResponser.overHttp
  split
  · exact (hperform _).bind_silent fun _ => rfl
  · split
    · exact (hperform _).bind_silent fun _ => rfl
    · split
      · exact (hperform _).bind_silent fun _ => rfl
      · exact .pure _

theorem callsOnce_overStore (packet packetResponse : ServicePacket) :
    (ServicePackageResponser.overStore up w packet packetResponse).CallsOnce (MayCall 200) := by
  have hquery : ∀ q, (w.query up q).CallsOnce (MayCall 200) := callsOnce_query fun _ _ => rfl
  unfold ServicePackageResponser.overStore
  split
  · exact (hquery _).bind_silent fun _ => rfl
  · split
    · exact (hquery _).bind_silent fun _ => rfl
    · exact .pure _

/-- The two chains of `parser` serve different types: only one of them asks. -/
theorem callsOnce_servicePackage (data : Bytes) :
    (ServicePackageResponser.parser proto up w data).CallsOnce (MayCall 200) := by
  cases hparse : proto.packet.parse data with
  | none =>
      rw [ServicePackageResponser.parser_unparsable hparse]
      exact .pure _
  | some packet =>
      by_cases ht : packet.type.getD 0 = 27 ∨ packet.type.getD 0 = 29
      · rw [ServicePackageResponser.parser_store hparse ht]
        exact (callsOnce_overStore packet {}).bind_silent fun _ => rfl
      · rw [not_or] at ht
        rw [ServicePackageResponser.parser_http hparse ht.1 ht.2]
        exact (callsOnce_overHttp packet).bind_silent fun _ => rfl

theorem callsOnce_python (data : Bytes) :
    (PythonFuncServiceResponser.parser proto up data).CallsOnce (MayCall 8000) := by
  unfold PythonFuncServiceResponser.parser
  split
  · exact .pure _
  · split
    · exact .pure _
    · have hcall : ∀ c, (Traced.call (.python c) (.ok (up.python c)) : Handler _).CallsOnce (MayCall 8000) :=
        fun c => CallsOnce.call (show MayCall 8000 (.python c) from rfl) _
      exact (hcall _).bind_silent fun _ => rfl

/-- An envelope asks nobody itself. -/
theorem callsOnce_envelope {C : ExternalCall → Prop} {task : Bytes → Handler (ServiceResponseResult × Bytes)}
    (h : ∀ p, (task p).CallsOnce C) (data : Bytes) : (envelopeHandler proto task data).CallsOnce C := by
  unfold envelopeHandler
  split
  · exact .pure _
  · split
    · split
      · exact (h _).bind_silent fun _ => rfl
      · exact .pure _
    · exact .pure _

theorem callsOnce_push (data : Bytes) : (pushHandler proto up w data).CallsOnce (MayCall 6666) := by
  unfold pushHandler
  simp only
  split
  · split
    · exact .pure _
    · exact (callsOnce_getSession (fun _ _ => rfl) _).bind_silent fun _ => rfl
  · exact .fault _

theorem calls_caught (x : Handler (List Dispatch)) : (caught x).calls = x.calls := by
  unfold caught
  split
  · rfl
  · rfl

/-- **One message.** It asks at most one back end, once, and only the one of its command. -/
theorem WorkerCaches.doWork_callsOnce : (w.doWork proto up t).CallsOnce (MayCall t.head.cmd) := by
  unfold WorkerCaches.doWork
  cases hpick : pickResponser t.head.cmd with
  | none => exact .pure _
  | some responser =>
      simp only
      have hhandle : (responser.handle proto up w t.data).CallsOnce (MayCall t.head.cmd) := by
        rcases pickResponser_cases hpick with ⟨hcmd, rfl⟩ | ⟨hcmd, rfl⟩ | ⟨hcmd, rfl⟩ | ⟨hcmd, rfl⟩ | ⟨_, rfl⟩
        · rw [hcmd]
          exact callsOnce_envelope callsOnce_servicePackage _
        · rw [hcmd]
          exact callsOnce_push _
        · -- the guard turns every packet away
          refine callsOnce_envelope (fun p => ?_) _
          rw [GroupResponser.parser_eq]
          exact .pure _
        · rw [hcmd]
          exact callsOnce_envelope callsOnce_python _
        · unfold Responser.handle
          simp only
          split
          · exact .fault _
          · exact .pure _
      unfold CallsOnce
      rw [calls_caught]
      exact hhandle.bind_silent fun _ => rfl

end Messages

/-! ## A worker's life -/

/-- What the messages of a worker account for, one by one and in order. -/
def Itemized {α β : Type} (allowed : α → List β → Prop) (ms : List α) (total : List β) : Prop :=
  ∃ items, total = items.flatten ∧ List.Forall₂ allowed ms items

theorem Itemized.cons {α β : Type} {allowed : α → List β → Prop} {m : α} {ms : List α} {item rest : List β}
    (hm : allowed m item) (h : Itemized allowed ms rest) : Itemized allowed (m :: ms) (item ++ rest) := by
  obtain ⟨items, rfl, hall⟩ := h
  exact ⟨item :: items, rfl, .cons hm hall⟩

/-- Where nothing is an allowance for every message, nothing is one for all of them. -/
theorem Itemized.nothing {α β : Type} {allowed : α → List β → Prop} (h : ∀ m, allowed m []) (ms : List α) :
    Itemized allowed ms [] := by
  induction ms with
  | nil => exact ⟨[], rfl, .nil⟩
  | cons m ms ih => exact Itemized.cons (h m) ih

/-- The calls a message accounts for. -/
def OneCall (m : Upstream × Task) (cs : List ExternalCall) : Prop :=
  cs.length ≤ 1 ∧ ∀ c ∈ cs, MayCall m.2.head.cmd c

theorem oneCall_doWork (proto : Proto) (w : WorkerCaches) (m : Upstream × Task) :
    OneCall m (w.doWork proto m.1 m.2).calls :=
  ⟨WorkerCaches.doWork_callsOnce.length_le, WorkerCaches.doWork_callsOnce.forall_calls⟩

theorem oneCall_nil (m : Upstream × Task) : OneCall m [] := ⟨Nat.zero_le 1, fun _ h => by cases h⟩

/-- **Calls.** Also of a worker that ends on a null pointer: it asks at most one back end for each message it
    handles, the one of the command. -/
theorem work_calls_itemized (proto : Proto) (w : WorkerCaches) (ms : List (Upstream × Task)) :
    Itemized OneCall ms (w.work proto ms).calls := by
  induction ms with
  | nil => exact Itemized.nothing oneCall_nil []
  | cons m ms ih =>
      have hcalls : (w.work proto (m :: ms)).calls
          = (w.doWork proto m.1 m.2).calls ++ match (w.doWork proto m.1 m.2).outcome with
            | .error _ => []
            | .ok _ => (w.work proto ms).calls := by
        show (w.doWork proto m.1 m.2 >>= fun ds => w.work proto ms >>= fun rest => pure (ds ++ rest)).calls = _
        rw [Traced.calls_bind]
        congr 1
        cases (w.doWork proto m.1 m.2).outcome with
        | error e => rfl
        | ok ds =>
            simp only [Traced.calls_bind, Traced.calls_pure]
            cases (w.work proto ms).outcome with
            | error e => exact List.append_nil _
            | ok rest => exact List.append_nil _
      rw [hcalls]
      refine Itemized.cons (oneCall_doWork proto w m) ?_
      cases (w.doWork proto m.1 m.2).outcome with
      | error e => exact Itemized.nothing oneCall_nil ms
      | ok ds => exact ih

/-- **Frames.** A worker that handled all its messages dispatched what they allow it, one by one. -/
theorem work_frames_itemized {proto : Proto} {w : WorkerCaches} {ms : List (Upstream × Task)}
    {ds : List Dispatch} (h : (w.work proto ms).outcome = .ok ds) :
    Itemized (fun m => Outgoing proto m.2) ms ds := by
  induction ms generalizing ds with
  | nil =>
      cases h
      exact ⟨[], rfl, .nil⟩
  | cons m ms ih =>
      obtain ⟨first, hfirst, h⟩ := Traced.outcome_bind_eq_ok (x := w.doWork proto m.1 m.2) h
      obtain ⟨rest, hrest, h⟩ := Traced.outcome_bind_eq_ok (x := w.work proto ms) h
      cases h
      exact Itemized.cons (WorkerCaches.doWork_outgoing hfirst) (ih hrest)

/-- **What leaves a worker.** Whatever messages it handles, with whatever answers: its calls are at most one for
    each message, to the back end of the command; and if it never ends on a null pointer, its frames are for
    each message nothing, one reply to where it came from, or the pushes of one packet. -/
theorem work_outgoing (proto : Proto) (w : WorkerCaches) (ms : List (Upstream × Task)) :
    Itemized OneCall ms (w.work proto ms).calls ∧
      ∀ ds, (w.work proto ms).outcome = .ok ds → Itemized (fun m => Outgoing proto m.2) ms ds :=
  ⟨work_calls_itemized proto w ms, fun _ h => work_frames_itemized h⟩

/-- A request that does not parse gets an empty reply. -/
theorem work_outgoing_unparsed :
    Itemized (fun m => Outgoing Proto.wire m.2)
      [(silentUpstream, ⟨[], ⟨0, 12, 200⟩, ascii "server:a:1:0"⟩)]
      [.fixToServer (ascii "server:a:1:0") (frame ⟨0, 12, 201⟩ [])] := by
  refine (work_outgoing Proto.wire ⟨none, none⟩ _).2 _ ?_
  have hparse : Proto.wire.request.parse [] = none := Proto.wire.request.parse_nil rfl
  simp [WorkerCaches.work, WorkerCaches.doWork, pickResponser, Responser.handle, envelopeHandler, hparse, caught,
    ServiceResponseResult.fresh, Responser.response]

end BServer
