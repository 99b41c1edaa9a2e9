import BServer.Task.PushFanOut
import BServer.Task.ServicePackage

/-!
# `Task.Worker` — a worker, from `init_cache_map` to the messages it handles

A worker thread tries to set its two thread-specific pointers once, when it starts, and then handles messages
until the process stops, whatever came of that. `find_near` and `find_by_city` look whether the mongo client is
there; `get_session` goes through the session cache unasked. Nothing catches a null pointer, so one message may
end all workers.

The responsers are those of `Task.Responser`, with the two ways to end without a value told apart;
`doWork_outcome` says that nothing else is different. `no_null_deref_iff` is about a worker's whole life: it
never follows an unset pointer exactly when its session cache was set, or none of its messages asks for a push.
-/

namespace BServer

open Bytes

/-! ## Starting -/

/-- What `init_cache_map` is told by the configuration, zookeeper and the store. -/
structure CacheInit where
  sessionPath    : Bytes
  sessionPathBak : Bytes
  /-- what `SessCache::init` returns -/
  sessInit       : CInt
  mongoHosts     : List (Bytes × Int)
  /-- what `group_mongo_client::connect` returns -/
  connected      : Bool

/-- `session_task::init_cache_map`; the pointers of a thread start out null. -/
def initCacheMap (c : CacheInit) : WorkerCaches where
  sessCache := if c.sessInit ≠ 0 then none else some ⟨c.sessionPath, c.sessionPathBak⟩
  mongoClientCache :=
    if c.mongoHosts.length ≠ 0 then
      if !c.connected then none else some ⟨c.mongoHosts⟩
    else none

/-! ## Handling one message -/

section Handling

variable (proto : Proto) (up : Upstream) (w : WorkerCaches)

/-- `envelopeParser`, for an inner task that may fault. -/
def envelopeHandler (task : Bytes → Handler (ServiceResponseResult × Bytes)) (data : Bytes) :
    Handler Parsed :=
  match proto.request.parse data with
  | none => pure ⟨.fresh, [], []⟩
  | some sr =>
      if sr.serviceType.getD 0 = serverServiceType then
        if sr.payload.isSome then do
          let (res, packetResponse) ← task (sr.payload.getD [])
          return if res.status = 0 && res.sync then
              ⟨res, proto.response.serialize (envelope sr res.status packetResponse), []⟩
            else ⟨res, [], []⟩
        else pure ⟨.fresh, [], []⟩
      else pure ⟨.fresh, [], []⟩

/-- `server_service_response_responser::parser`. A failed assertion in an accessor ends it before it has done
    anything. -/
def pushHandler (data : Bytes) : Handler Parsed :=
  let res : ServiceResponseResult := ⟨0, true⟩
  let jsonData : ServiceRequestJsonData := ⟨up.readJson data⟩
  match jsonData.cid, jsonData.serviceId, jsonData.data with
  | some cid, some serviceId, some responseData =>
      if cid.isEmpty || serviceId.isEmpty || responseData.isEmpty then pure ⟨res, [], []⟩
      else do
        let packetRes := proto.packet.serialize (pushedPacket cid serviceId responseData)
        let sesss ← w.getSession up cid
        return ⟨res, [], sesss.map (pushTo proto up.uuid packetRes)⟩
  | _, _, _ => .fault .threw

/-- The virtual `parser`, in a worker. -/
def Responser.handle : Responser → Bytes → Handler Parsed
  | serverService         => envelopeHandler proto (ServicePackageResponser.parser proto up w)
  | serverServiceResponse => pushHandler proto up w
  | groupService          => envelopeHandler proto (GroupResponser.parser proto up w)
  | pythonService         => envelopeHandler proto (PythonFuncServiceResponser.parser proto up)
  | servicePackageBusy    => fun data =>
      match busyParser proto data with
      | none => .fault .threw
      | some parsed => pure parsed

/-- The handlers of exceptions in `do_work`; whatever threw had dispatched nothing. -/
def caught (x : Handler (List Dispatch)) : Handler (List Dispatch) :=
  match x.outcome with
  | .error .threw => ⟨x.calls, .ok []⟩
  | _ => x

/-- `session_task::do_work`, which is `logic_deal_processing::do_work`. -/
def WorkerCaches.doWork (t : Task) : Handler (List Dispatch) :=
  match pickResponser t.head.cmd with
  | none => pure []
  | some responser =>
      caught do
        let parsed ← responser.handle proto up w t.data
        return if parsed.result.async then parsed.dispatches
          else parsed.dispatches ++ responser.response t.id t.head parsed.response

/-- The loop of `work`, over the messages popped, each with the world as it answers by then. -/
def WorkerCaches.work : List (Upstream × Task) → Handler (List Dispatch)
  | []            => pure []
  | (up, t) :: ts => do
      let ds ← w.doWork proto up t
      let rest ← work ts
      return ds ++ rest

end Handling

section Worker

variable {proto : Proto} {up : Upstream} {w : WorkerCaches} {data : Bytes}

/-! ### The same responsers -/

theorem envelopeHandler_outcome (task : Bytes → Handler (ServiceResponseResult × Bytes)) :
    (envelopeHandler proto task data).outcome.toOption = envelopeParser proto (innerTaskOf task) data := by
  unfold envelopeHandler envelopeParser
  cases proto.request.parse data with
  | none => rfl
  | some sr =>
      simp only
      split
      · split
        · simp only [innerTaskOf]
          rw [Traced.outcome_bind]
          cases (task (sr.payload.getD [])).outcome with
          | error e => rfl
          | ok out =>
              show some (if _ then _ else _) = if _ then some _ else some _
              split
              · rfl
              · rfl
        · rfl
      · rfl

theorem pushHandler_outcome :
    (pushHandler proto up w data).outcome.toOption
      = serverServiceResponseParser proto (w.backends proto up) data := by
  unfold pushHandler serverServiceResponseParser
  simp only [WorkerCaches.backends]
  cases ServiceRequestJsonData.cid ⟨up.readJson data⟩ with
  | none => rfl
  | some cid =>
      cases ServiceRequestJsonData.serviceId ⟨up.readJson data⟩ with
      | none => rfl
      | some serviceId =>
          cases ServiceRequestJsonData.data ⟨up.readJson data⟩ with
          | none => rfl
          | some responseData =>
              simp only [Option.bind_some]
              split
              · rfl
              · rw [Traced.outcome_bind]
                cases (w.getSession up cid).outcome with
                | error e => rfl
                | ok sesss => rfl

theorem handle_outcome (responser : Responser) :
    (responser.handle proto up w data).outcome.toOption
      = responser.parser proto (w.backends proto up) data := by
  cases responser with
  | serverService => exact envelopeHandler_outcome _
  | serverServiceResponse => exact pushHandler_outcome
  | groupService => exact envelopeHandler_outcome _
  | pythonService => exact envelopeHandler_outcome _
  | servicePackageBusy =>
      show Except.toOption (match busyParser proto data with
        | none => Traced.fault Fault.threw
        | some parsed => pure parsed).outcome = busyParser proto data
      cases busyParser proto data with
      | none => rfl
      | some parsed => rfl

theorem caught_outcome (x : Handler (List Dispatch)) :
    (caught x).outcome = match x.outcome with
      | .error .threw => .ok []
      | _ => x.outcome := by
  unfold caught
  split
  · rfl
  · rfl

/-- **The same `do_work`.** Unless a null pointer ends the process, what a worker dispatches for a message is
    what `doWork` says, with the back ends this worker has. -/
theorem WorkerCaches.doWork_outcome {t : Task} (h : (w.doWork proto up t).Avoids .nullDeref) :
    (w.doWork proto up t).outcome = .ok (BServer.doWork proto (w.backends proto up) t.id t.head t.data) := by
  unfold WorkerCaches.doWork Traced.Avoids at h
  unfold WorkerCaches.doWork BServer.doWork
  cases hpick : pickResponser t.head.cmd with
  | none => rfl
  | some responser =>
      have hsame : (responser.handle proto up w t.data).outcome.toOption
          = responser.parser proto (w.backends proto up) t.data := handle_outcome responser
      simp only [hpick] at h ⊢
      rw [caught_outcome, Traced.outcome_bind] at h ⊢
      cases hout : (responser.handle proto up w t.data).outcome with
      | error e =>
          rw [hout] at h hsame
          rw [← hsame]
          cases e with
          | threw => rfl
          | nullDeref => exact absurd rfl h
      | ok parsed =>
          rw [hout] at hsame
          rw [← hsame]
          simp only [Except.toOption, Traced.outcome_pure]

/-! ## What goes through a pointer -/

open Traced

/-- An exception is no null pointer. -/
theorem orThrow_ne_nullDeref {α : Type} (a : Option α) : orThrow a ≠ .error .nullDeref := by
  cases a with
  | none => exact fun h => by cases h
  | some a => exact fun h => by cases h

/-- The mongo client is only followed when it is set. -/
theorem avoids_query (q : StoreQuery) : (w.query up q).Avoids .nullDeref := by
  cases hw : w.mongoClientCache with
  | none =>
      rw [WorkerCaches.query_unset hw]
      exact avoids_pure _ _
  | some client =>
      rw [WorkerCaches.query_set hw]
      exact avoids_call (orThrow_ne_nullDeref _)

theorem avoids_perform (c : HttpCall) : (perform up c).Avoids .nullDeref := avoids_call (fun h => by cases h)

theorem avoids_overHttp (packet : ServicePacket) :
    (ServicePackageResponser.overHttp up packet).Avoids .nullDeref := by
  unfold ServicePackageResponser.overHttp
  split
  · exact (avoids_perform _).bind (fun _ _ => avoids_pure _ _)
  · split
    · exact (avoids_perform _).bind (fun _ _ => avoids_pure _ _)
    · split
      · exact (avoids_perform _).bind (fun _ _ => avoids_pure _ _)
      · exact avoids_pure _ _

theorem avoids_overStore (packet packetResponse : ServicePacket) :
    (ServicePackageResponser.overStore up w packet packetResponse).Avoids .nullDeref := by
  unfold ServicePackageResponser.overStore
  split
  · exact (avoids_query _).bind (fun _ _ => avoids_pure _ _)
  · split
    · exact (avoids_query _).bind (fun _ _ => avoids_pure _ _)
    · exact avoids_pure _ _

theorem avoids_servicePackage : (ServicePackageResponser.parser proto up w data).Avoids .nullDeref := by
  unfold ServicePackageResponser.parser
  split
  · exact avoids_pure _ _
  · exact (avoids_overHttp _).bind fun _ _ =>
      (avoids_overStore _ _).bind fun _ _ => avoids_pure _ _

theorem avoids_python : (PythonFuncServiceResponser.parser proto up data).Avoids .nullDeref := by
  unfold PythonFuncServiceResponser.parser
  split
  · exact avoids_pure _ _
  · split
    · exact avoids_pure _ _
    · exact (avoids_call (fun h => by cases h)).bind (fun _ _ => avoids_pure _ _)

theorem avoids_envelope {task : Bytes → Handler (ServiceResponseResult × Bytes)}
    (h : ∀ p, (task p).Avoids .nullDeref) : (envelopeHandler proto task data).Avoids .nullDeref := by
  unfold envelopeHandler
  split
  · exact avoids_pure _ _
  · split
    · split
      · exact (h _).bind (fun _ _ => avoids_pure _ _)
      · exact avoids_pure _ _
    · exact avoids_pure _ _

variable (proto w) in
/-- A push asks the session cache for the sessions of its client. -/
theorem pushHandler_push {cid serviceId responseData : Bytes}
    (hp : Pushes (up.readJson data) cid serviceId responseData) :
    ∃ finish : List (Bytes × Sess) → Parsed,
      pushHandler proto up w data = (w.getSession up cid >>= fun sesss => pure (finish sesss)) := by
  have hne : ∀ {s : Bytes}, s ≠ [] → s.isEmpty = false := fun hs => by simpa using hs
  unfold pushHandler
  simp only [ServiceRequestJsonData.cid, ServiceRequestJsonData.serviceId, ServiceRequestJsonData.data,
    Json.stringMember_eq hp.cid, Json.stringMember_eq hp.serviceId, Json.stringMember_eq hp.data,
    hne hp.cid.1, hne hp.serviceId.1, hne hp.data.1, Bool.or_self, Bool.false_eq_true, if_false]
  exact ⟨_, rfl⟩

theorem avoids_pushHandler (hn : ∀ cid serviceId responseData,
    ¬ Pushes (up.readJson data) cid serviceId responseData) :
    (pushHandler proto up w data).Avoids .nullDeref := by
  unfold pushHandler
  simp only
  split
  · next cid serviceId responseData hc hs hd =>
      split
      · exact avoids_pure _ _
      · next hne =>
          -- three members that are there and not empty would ask for a push
          simp only [Bool.or_eq_true, List.isEmpty_iff, not_or] at hne
          exact absurd ⟨Json.holds_of_stringMember hne.1.1 hc, Json.holds_of_stringMember hne.1.2 hs,
            Json.holds_of_stringMember hne.2 hd⟩ (hn cid serviceId responseData)
  · exact fun h => by cases h

theorem avoids_getSession {cache : SessCache} (hw : w.sessCache = some cache) (cid : Bytes) :
    (w.getSession up cid).Avoids .nullDeref := by
  unfold WorkerCaches.getSession
  rw [hw]
  exact avoids_call (orThrow_ne_nullDeref _)

theorem getSession_unset (hw : w.sessCache = none) (cid : Bytes) :
    (w.getSession up cid).outcome = .error .nullDeref := by
  unfold WorkerCaches.getSession
  rw [hw]
  rfl

/-- A message asks for a push. -/
def AsksForPush (up : Upstream) (t : Task) : Prop :=
  t.head.cmd = 6666 ∧ ∃ cid serviceId data, Pushes (up.readJson t.data) cid serviceId data

/-! ## One message -/

theorem avoids_caught {x : Handler (List Dispatch)} : (caught x).Avoids .nullDeref ↔ x.Avoids .nullDeref := by
  unfold Traced.Avoids
  rw [caught_outcome]
  split
  · next h =>
      rw [h]
      exact ⟨fun _ => nofun, fun _ => nofun⟩
  · exact Iff.rfl

theorem avoids_handle {responser : Responser} (h : w.sessCache ≠ none ∨ responser ≠ .serverServiceResponse ∨
    ∀ cid serviceId responseData, ¬ Pushes (up.readJson data) cid serviceId responseData) :
    (responser.handle proto up w data).Avoids .nullDeref := by
  cases responser with
  | serverService => exact avoids_envelope (fun _ => avoids_servicePackage)
  | groupService =>
      refine avoids_envelope (fun p => ?_)
      rw [GroupResponser.parser_eq]
      exact avoids_pure _ _
  | pythonService => exact avoids_envelope (fun _ => avoids_python)
  | servicePackageBusy =>
      unfold Responser.handle
      simp only
      split
      · exact fun h => by cases h
      · exact avoids_pure _ _
  | serverServiceResponse =>
      show (pushHandler proto up w data).Avoids _
      rcases h with hw | hne | hn
      · by_cases hp : ∃ cid serviceId responseData, Pushes (up.readJson data) cid serviceId responseData
        · obtain ⟨cid, serviceId, responseData, hp⟩ := hp
          obtain ⟨cache, hcache⟩ := Option.ne_none_iff_exists'.mp hw
          obtain ⟨finish, heq⟩ := pushHandler_push proto w hp
          rw [heq]
          exact (avoids_getSession hcache cid).bind (fun _ _ => avoids_pure _ _)
        · exact avoids_pushHandler (fun cid serviceId responseData h =>
            hp ⟨cid, serviceId, responseData, h⟩)
      · exact absurd rfl hne
      · exact avoids_pushHandler hn

/-- Only one command picks the responser of pushes. -/
theorem pickResponser_push {cmd : CInt} (h : pickResponser cmd = some .serverServiceResponse) : cmd = 6666 := by
  unfold pickResponser at h
  split at h
  · cases h
  · split at h
    · assumption
    · split at h
      · cases h
      · split at h
        · cases h
        · split at h
          · cases h
          · cases h

/-- **One message.** It goes through an unset pointer exactly when it asks for a push and there is no session
    cache. -/
theorem avoids_doWork_iff {t : Task} :
    (w.doWork proto up t).Avoids .nullDeref ↔ w.sessCache ≠ none ∨ ¬ AsksForPush up t := by
  unfold WorkerCaches.doWork
  cases hpick : pickResponser t.head.cmd with
  | none =>
      refine ⟨fun _ => Or.inr ?_, fun _ => avoids_pure _ _⟩
      rintro ⟨hcmd, _⟩
      rw [hcmd] at hpick
      cases hpick
  | some responser =>
      rw [avoids_caught]
      constructor
      · intro h
        by_contra hno
        rw [not_or, not_not, not_not] at hno
        obtain ⟨hw, hcmd, cid, serviceId, responseData, hp⟩ := hno
        rw [hcmd] at hpick
        cases hpick
        obtain ⟨finish, heq⟩ := pushHandler_push proto w hp
        refine h ?_
        refine outcome_bind_error ?_ _
        show (pushHandler proto up w t.data).outcome = _
        rw [heq]
        exact outcome_bind_error (getSession_unset hw cid) _
      · intro h
        refine (avoids_handle ?_).bind (fun _ _ => avoids_pure _ _)
        rcases h with hw | hn
        · exact Or.inl hw
        · refine Or.inr ?_
          by_cases hr : responser = .serverServiceResponse
          · rw [hr] at hpick
            exact Or.inr fun cid serviceId responseData hp =>
              hn ⟨pickResponser_push hpick, cid, serviceId, responseData, hp⟩
          · exact Or.inl hr

/-! ## A worker's life -/

/-- A run follows no unset pointer when none of its messages makes it. -/
theorem avoids_work {ts : List (Upstream × Task)}
    (h : ∀ m ∈ ts, (w.doWork proto m.1 m.2).Avoids .nullDeref) : (w.work proto ts).Avoids .nullDeref := by
  induction ts with
  | nil => exact avoids_pure _ _
  | cons m ts ih =>
      have hhead := h m List.mem_cons_self
      have htail := ih (fun m' hm' => h m' (List.mem_cons_of_mem m hm'))
      exact hhead.bind fun _ _ => htail.bind fun _ _ => avoids_pure _ _

/-- It does when one makes it: what came before ended without a fault, or in this one. -/
theorem not_avoids_work {ts : List (Upstream × Task)} {m : Upstream × Task} (hm : m ∈ ts)
    (h : ¬ (w.doWork proto m.1 m.2).Avoids .nullDeref) : ¬ (w.work proto ts).Avoids .nullDeref := by
  induction ts with
  | nil => cases hm
  | cons m' ts ih =>
      intro hwork
      by_cases hhead : (w.doWork proto m'.1 m'.2).Avoids .nullDeref
      · have hm : m ∈ ts := by
          rcases List.mem_cons.mp hm with rfl | hm
          · exact absurd hhead h
          · exact hm
        have hok := WorkerCaches.doWork_outcome hhead
        refine ih hm (fun hts => hwork ?_)
        show (w.doWork proto m'.1 m'.2 >>= _).outcome = _
        rw [outcome_bind_ok hok]
        exact outcome_bind_error hts _
      · rw [Traced.Avoids, not_not] at hhead
        exact hwork (outcome_bind_error hhead _)

theorem initCacheMap_sessCache (c : CacheInit) : (initCacheMap c).sessCache ≠ none ↔ c.sessInit = 0 := by
  show (if c.sessInit ≠ 0 then none else some _) ≠ none ↔ _
  split
  · next h => exact ⟨fun hne => absurd rfl hne, fun hz => absurd hz h⟩
  · next h => exact ⟨fun _ => not_not.mp h, fun _ => Option.some_ne_none _⟩

end Worker

/-- **When no unset pointer is followed.** For every outcome of `init_cache_map` and every sequence of messages
    that a worker then handles: exactly when the session cache was set, or no message asks for a push. -/
theorem no_null_deref_iff (proto : Proto) (c : CacheInit) (ts : List (Upstream × Task)) :
    ((initCacheMap c).work proto ts).outcome ≠ .error .nullDeref ↔
      c.sessInit = 0 ∨ ∀ m ∈ ts, ¬ AsksForPush m.1 m.2 := by
  constructor
  · intro h
    by_contra hno
    rw [not_or, not_forall] at hno
    obtain ⟨hinit, m, hm⟩ := hno
    rw [Classical.not_imp, not_not] at hm
    refine not_avoids_work hm.1 ?_ h
    rw [avoids_doWork_iff, initCacheMap_sessCache]
    exact fun hor => hor.elim hinit (fun hn => hn hm.2)
  · intro h
    refine avoids_work (fun m hm => avoids_doWork_iff.mpr ?_)
    rw [initCacheMap_sessCache]
    exact h.imp_right (fun hn => hn m hm)

/-! ### A push to a worker without a session cache -/

/-- Zookeeper is off, and no store is configured. -/
def bareInit : CacheInit := ⟨ascii "/sessions", ascii "/sessions.bak", -1, [], false⟩

/-- A world whose reader knows the body of the push. -/
def pushUpstream : Upstream := { silentUpstream with readJson := (pushBackends []).readJson }

theorem push_follows_null :
    ((initCacheMap bareInit).work Proto.wire [(pushUpstream, ⟨pushBody, ⟨0, 0, 6666⟩, []⟩)]).outcome
      = .error .nullDeref := by
  by_contra h
  refine not_avoids_work List.mem_cons_self ?_ h
  rw [avoids_doWork_iff]
  rintro (hw | hn)
  · exact hw rfl
  · exact hn ⟨rfl, _, _, _, pushBody_pushes []⟩

end BServer
