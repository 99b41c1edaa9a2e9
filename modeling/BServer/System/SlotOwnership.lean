import BServer.System.World

/-!
# `System.SlotOwnership` — whose binding a close removes

`close()` unbinds the id the session carries, without looking who is bound there. That is harmless as long as
the session itself is bound, or nobody. It is not when another session has registered under the id since: the
heartbeat rebinds a slot as soon as it is free, the read handler of a session may close it a second time after
the write handler did, and an attempt to connect that fails closes a session that never registered.

`Orderly` says which orders are harmless, on the slot log alone: whoever closes under an id is the last to have
registered under it, or nobody has since the last close. `closes_keep_others_iff` is exact: in a run no close
ever removes the binding of another session, and every session that is open and was not replaced stays
reachable under its id, if and only if the log of the run is orderly. `doubleClose` is a run whose log is not.
-/

namespace BServer

open Bytes

/-! ## Orderly logs -/

/-- A close under an id that nobody holds, or its own session does. -/
def Admissible (log : List SlotEvent) : SlotEvent → Prop
  | .registered _ _ => True
  | .closed k x     => ∀ y, holder k log = some y → y = x

/-- Every event of the log is admissible when it comes. -/
def Orderly (log : List SlotEvent) : Prop :=
  ∀ pre e post, log = pre ++ e :: post → Admissible pre e

theorem orderly_nil : Orderly [] := Run.forall_split_nil

theorem orderly_snoc {log : List SlotEvent} {e : SlotEvent} :
    Orderly (log ++ [e]) ↔ Orderly log ∧ Admissible log e :=
  Run.forall_split_snoc

/-- **The holder stays.** In an orderly log, a session that registered under an id, was not replaced there and
    did not close holds the id. -/
theorem Orderly.holder_eq {k : Bytes} {x : SessPtr} {pre : List SlotEvent} (post : List SlotEvent)
    (h : Orderly (pre ++ .registered k x :: post)) (hreg : ∀ y, SlotEvent.registered k y ∉ post)
    (hclosed : ∀ k', SlotEvent.closed k' x ∉ post) : holder k (pre ++ .registered k x :: post) = some x := by
  induction post using List.reverseRecOn with
  | nil =>
      rw [holder_snoc, SlotEvent.apply]
      exact if_pos rfl
  | append_singleton post e ih =>
      rw [← List.cons_append, ← List.append_assoc] at h ⊢
      obtain ⟨hinit, he⟩ := orderly_snoc.mp h
      have hold := ih hinit (fun y hy => hreg y (List.mem_append_left _ hy))
        (fun k' hk' => hclosed k' (List.mem_append_left _ hk'))
      rw [holder_snoc, hold]
      -- the last event is about another id: it would replace the session, or close it
      cases e with
      | registered k' y =>
          have hk : k ≠ k' := by
            rintro rfl
            exact hreg y (List.mem_append_right _ List.mem_cons_self)
          exact if_neg hk
      | closed k' y =>
          have hk : k ≠ k' := by
            rintro rfl
            -- the close is admissible, so it would be the session's own
            have hxy : x = y := he x hold
            exact hclosed k (hxy ▸ List.mem_append_right _ List.mem_cons_self)
          exact if_neg hk

namespace World

/-! ## Runs -/

/-- Every close of the event leaves the bindings of other sessions alone. -/
def Keeps (w w' : World) : Prop :=
  ∀ k' x, w'.slotLog = w.slotLog ++ [.closed k' x] → ∀ k y, y ≠ x →
    w.registries.peerMapClient.fixGet k = some y → w'.registries.peerMapClient.fixGet k = some y

/-- A session that is open, and was not replaced under the id it registered under, is bound there. -/
def StaysBound (w : World) : Prop :=
  ∀ (x : SessPtr) (s : Session) (k : Bytes) (pre post : List SlotEvent), w.sessions[x]? = some s →
    s.shut = false → w.slotLog = pre ++ .registered k x :: post →
    (∀ y, SlotEvent.registered k y ∉ post) → w.registries.peerMapClient.fixGet k = some x

/-- Closing one session never unregisters another, throughout a run. -/
def ClosesKeepOthers (connectCount : Int) (es : List Event) : Prop :=
  Run.Throughout (step connectCount) Keeps start es ∧
  ∀ pre post w, es = pre ++ post → Run.run (step connectCount) start pre = some w → StaysBound w

/-- An event logs at most one entry. -/
theorem slotLog_step {connectCount : Int} {w w' : World} {e : Event}
    (hs : step connectCount w e = some w') :
    w'.slotLog = w.slotLog ∨ ∃ ev, w'.slotLog = w.slotLog ++ [ev] := by
  have hevents : ∀ (x : SessPtr) (s : Session), s.slotEvents x = [] ∨ ∃ ev, s.slotEvents x = [ev] := by
    intro x s
    rcases kind_cases s with hk | hk
    · exact Or.inl (slotEvents_server x hk)
    · cases hshut : s.shut with
      | true => exact Or.inr ⟨_, slotEvents_shut x hk hshut⟩
      | false => exact Or.inr ⟨_, slotEvents_open x hk hshut⟩
  have happend : ∀ (x : SessPtr) (s : Session), w.slotLog ++ s.slotEvents x = w.slotLog ∨
      ∃ ev, w.slotLog ++ s.slotEvents x = w.slotLog ++ [ev] := by
    intro x s
    rcases hevents x s with h | ⟨ev, h⟩
    · exact Or.inl (by rw [h, List.append_nil])
    · exact Or.inr ⟨ev, by rw [h]⟩
  rcases step_cases hs with ⟨up, address, port, _, rfl⟩ | ⟨x, s, s', msgs, hx, _, rfl | rfl⟩
  · exact happend _ _
  · exact Or.inl rfl
  · have hx' : (w.advance x s' msgs).sessions[x]? = some s' :=
      List.getElem?_set_self (List.getElem?_eq_some_iff.mp hx).1
    rw [close_eq hx']
    exact happend _ _

/-- A close keeps the other bindings exactly when it is admissible. -/
theorem keeps_iff {w w' : World} (h : Inv w) (h' : Inv w') {k' : Bytes} {x : SessPtr}
    (hlog : w'.slotLog = w.slotLog ++ [.closed k' x]) :
    Keeps w w' ↔ Admissible w.slotLog (.closed k' x) := by
  have hget : ∀ k, w'.registries.peerMapClient.fixGet k
      = if k = k' then none else w.registries.peerMapClient.fixGet k := by
    intro k
    rw [h'.log, h.log, hlog, holder_snoc]
    rfl
  constructor
  · -- a close that is not admissible takes the binding of its holder away
    intro hkeep y hy
    by_contra hne
    have hbound := hkeep k' x hlog k' y hne ((h.log k').trans hy)
    rw [hget, if_pos rfl] at hbound
    cases hbound
  · intro hadm k'' x' hlog' k y hne hy
    have hev : SlotEvent.closed k' x = .closed k'' x' :=
      (List.cons.inj (List.append_cancel_left (hlog.symm.trans hlog'))).1
    cases hev
    rw [hget, if_neg]
    · exact hy
    · rintro rfl
      exact hne (hadm y ((h.log k).symm.trans hy))

/-- A run keeps bindings throughout exactly when its log is orderly. -/
theorem throughout_keeps_iff {connectCount : Int} {es : List Event} {w : World}
    (hrun : Run.run (step connectCount) start es = some w) :
    Run.Throughout (step connectCount) Keeps start es ↔ Orderly w.slotLog := by
  refine Run.run_induction (step connectCount)
    (P := fun es w => Run.Throughout (step connectCount) Keeps start es ↔ Orderly w.slotLog) ?_ ?_ hrun
  · exact ⟨fun _ => orderly_nil, fun _ => Run.throughout_nil _ _ _⟩
  · intro es t e u ht ih hu
    rw [Run.throughout_snoc (step connectCount) ht hu, ih]
    have hinv := inv_run ht
    rcases slotLog_step hu with hlog | ⟨ev, hlog⟩
    · -- nothing was closed
      have hvacuous : Keeps t u := by
        intro k' x hc
        rw [hlog] at hc
        exact absurd hc.symm (by simp)
      rw [hlog]
      exact ⟨fun h => h.1, fun h => ⟨h, hvacuous⟩⟩
    · rw [hlog, orderly_snoc]
      cases ev with
      | registered k x =>
          have hvacuous : Keeps t u := by
            intro k' x' hc
            rw [hlog] at hc
            cases (List.cons.inj (List.append_cancel_left hc)).1
          exact ⟨fun h => ⟨h.1, trivial⟩, fun h => ⟨h.1, hvacuous⟩⟩
      | closed k x => rw [keeps_iff hinv (hinv.step hu) hlog]

theorem staysBound_of_orderly {w : World} (h : Inv w) (ho : Orderly w.slotLog) : StaysBound w := by
  intro x s k pre post hx hopen hlog hreg
  rw [h.log, hlog]
  rw [hlog] at ho
  refine ho.holder_eq post hreg ?_
  -- a session whose close is logged would be shut
  intro k' hc
  obtain ⟨t, ht, hshut⟩ := h.closed k' x (by
    rw [hlog]
    exact List.mem_append_right _ (List.mem_cons_of_mem _ hc))
  rw [hx] at ht
  cases ht
  rw [hopen] at hshut
  cases hshut

/-- **When closing is safe.** In every run: no close unregisters another session, and every open session that
    was not replaced is what `fix_get` returns, if and only if each close under an id comes while nobody but
    the closing session holds that id. -/
theorem closes_keep_others_iff (connectCount : Int) (es : List Event) (w : World)
    (hrun : Run.run (step connectCount) start es = some w) :
    ClosesKeepOthers connectCount es ↔ Orderly w.slotLog := by
  constructor
  · rintro ⟨hkeep, _⟩
    exact (throughout_keeps_iff hrun).mp hkeep
  · intro ho
    have hkeep := (throughout_keeps_iff hrun).mpr ho
    refine ⟨hkeep, ?_⟩
    intro pre post t hes ht
    rw [hes] at hkeep
    exact staysBound_of_orderly (inv_run ht) ((throughout_keeps_iff ht).mp hkeep.prefix)

/-! ### Two stories about one slot -/

/-- The id of the slot both stories are about. -/
def slot : Bytes := slotId (serverIdOf (ascii "10.0.0.1:9000")) 0

/-- The slot is connected, its session fails once, and the heartbeat connects it again. -/
def reconnected : List Event :=
  [.connectSlot false (ascii "10.0.0.1:9000") 0 (ascii "10.0.0.1") 9000, .readError 0,
    .connectSlot false (ascii "10.0.0.1:9000") 0 (ascii "10.0.0.1") 9000]

theorem reconnected_keeps : ClosesKeepOthers 1 reconnected := by
  refine (closes_keep_others_iff 1 reconnected _ rfl).mpr ?_
  have h₁ : Orderly ([] ++ [.registered slot 0]) := orderly_snoc.mpr ⟨orderly_nil, trivial⟩
  have h₂ : Orderly (([] ++ [.registered slot 0]) ++ [.closed slot 0]) := by
    refine orderly_snoc.mpr ⟨h₁, ?_⟩
    intro y hy
    rw [holder_snoc, SlotEvent.apply, if_pos rfl] at hy
    exact (Option.some.inj hy).symm
  have h₃ : Orderly ((([] ++ [.registered slot 0]) ++ [.closed slot 0]) ++ [.registered slot 1]) :=
    orderly_snoc.mpr ⟨h₂, trivial⟩
  exact h₃

/-- The slot is connected, a write fails and closes its session, the heartbeat connects the slot again, and
    then the outstanding read of the first session fails too. -/
def doubleClose : List Event :=
  [.connectSlot false (ascii "10.0.0.1:9000") 0 (ascii "10.0.0.1") 9000,
    .write 0 .new ⟨0, 0, 300⟩ [], .written 0 0 true,
    .connectSlot false (ascii "10.0.0.1:9000") 0 (ascii "10.0.0.1") 9000, .readError 0]

/-- The second close of the first session takes the binding of the second session away. -/
theorem doubleClose_unregisters : ¬ ClosesKeepOthers 1 doubleClose := by
  rintro ⟨hkeep, _⟩
  have hbound := hkeep (doubleClose.take 4) (.readError 0) [] rfl _ _ rfl rfl
    slot 0 rfl slot 1 (by decide) (by decide)
  exact absurd hbound (by decide)

end World

end BServer
