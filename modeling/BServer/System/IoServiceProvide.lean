import BServer.Base.Run

/-!
# `System.IoServiceProvide` — whose turn it is in the pool

`get_io_service` hands out the services of the pool in turn. It selects the one at `next_io_service_`, moves the
index on, and takes it back to `0` if that made it equal to the size of the pool. Nothing keeps two callers
apart: the accept handlers, the heartbeat and the callback of the server list all call it, and each of its three
steps may come between those of another call. The test is an equality, so an index that was moved past the size
is not taken back by it.

What goes wrong has one beginning. The index reaches the size of the pool, a reset is due (`ResetDue`), and
before the call that has to do it gets there, another one selects a service or moves the index on. In a run
where no call does that, every index that is used is in range (`indices_in_range`).
-/

namespace BServer

/-- Where a caller is in `get_io_service`. -/
inductive CallStage where
  | idle
  /-- has selected a service, and is about to move the index on -/
  | selected (index : BitVec 64)
  /-- moved the index on, and is about to compare it with the size of the pool -/
  | incremented (index : BitVec 64)
deriving DecidableEq

namespace CallStage

/-- The index a caller used for `io_services_`. -/
def index : CallStage → Option (BitVec 64)
  | idle          => none
  | selected i    => some i
  | incremented i => some i

/-- The caller will compare next, and reset the index if it is at the end. -/
def comparing : CallStage → Bool
  | incremented _ => true
  | _             => false

end CallStage

/-- `io_service_provide::get_io_service`, when nobody comes between: the index it uses, and the one it leaves. -/
def getIoService (poolSize nextIoService : BitVec 64) : BitVec 64 × BitVec 64 :=
  let moved := nextIoService + 1
  (nextIoService, if moved = poolSize then 0 else moved)

/-- The index, and the threads that call `get_io_service`. -/
structure IoServiceProvide where
  nextIoService : BitVec 64
  callers       : List CallStage

namespace IoServiceProvide

/-- As the constructor leaves it, with so many threads. -/
def start (threads : Nat) : IoServiceProvide := ⟨0, List.replicate threads .idle⟩

/-- A step of the thread `c`. -/
inductive Event where
  /-- `*io_services_[next_io_service_]` -/
  | select (c : Nat)
  /-- `++next_io_service_` -/
  | increment (c : Nat)
  /-- the comparison, with the reset -/
  | compare (c : Nat)

def step (poolSize : BitVec 64) (s : IoServiceProvide) : Event → Option IoServiceProvide
  | .select c =>
      match s.callers[c]? with
      | some .idle => some { s with callers := s.callers.set c (.selected s.nextIoService) }
      | _ => none
  | .increment c =>
      match s.callers[c]? with
      | some (.selected i) => some ⟨s.nextIoService + 1, s.callers.set c (.incremented i)⟩
      | _ => none
  | .compare c =>
      match s.callers[c]? with
      | some (.incremented _) =>
          some ⟨if s.nextIoService = poolSize then 0 else s.nextIoService, s.callers.set c .idle⟩
      | _ => none

variable {poolSize : BitVec 64} {s s' : IoServiceProvide} {c : Nat}

/-! ## What a step does -/

theorem step_select : step poolSize s (.select c) = some s' ↔
    s.callers[c]? = some .idle ∧ s' = ⟨s.nextIoService, s.callers.set c (.selected s.nextIoService)⟩ := by
  simp only [step]
  split
  · next hc => simp [hc, eq_comm]
  · next hother =>
      refine iff_of_false (by simp) ?_
      rintro ⟨hc, _⟩
      exact hother hc

theorem step_increment : step poolSize s (.increment c) = some s' ↔
    ∃ i, s.callers[c]? = some (.selected i) ∧
      s' = ⟨s.nextIoService + 1, s.callers.set c (.incremented i)⟩ := by
  simp only [step]
  split
  · next hc => simp [hc, eq_comm]
  · next hother =>
      refine iff_of_false (by simp) ?_
      rintro ⟨i, hc, _⟩
      exact hother i hc

theorem step_compare : step poolSize s (.compare c) = some s' ↔
    ∃ i, s.callers[c]? = some (.incremented i) ∧
      s' = ⟨if s.nextIoService = poolSize then 0 else s.nextIoService, s.callers.set c .idle⟩ := by
  simp only [step]
  split
  · next hc => simp [hc, eq_comm]
  · next hother =>
      refine iff_of_false (by simp) ?_
      rintro ⟨i, hc, _⟩
      exact hother i hc

/-- The three steps of a call, one right after the other, are the whole function. -/
theorem run_call (hc : s.callers[c]? = some .idle) :
    Run.run (step poolSize) s [.select c, .increment c, .compare c]
      = some { s with nextIoService := (getIoService poolSize s.nextIoService).2 } := by
  obtain ⟨hlt, hidle⟩ := List.getElem?_eq_some_iff.mp hc
  have hselect : step poolSize s (.select c) = some _ := step_select.mpr ⟨hc, rfl⟩
  have hincrement : step poolSize ⟨s.nextIoService, s.callers.set c (.selected s.nextIoService)⟩
      (.increment c) = some _ := step_increment.mpr ⟨_, List.getElem?_set_self hlt, rfl⟩
  rw [List.set_set] at hincrement
  have hcompare : step poolSize ⟨s.nextIoService + 1, s.callers.set c (.incremented s.nextIoService)⟩
      (.compare c) = some _ := step_compare.mpr ⟨_, List.getElem?_set_self hlt, rfl⟩
  -- the thread is idle again, as it was
  rw [List.set_set, ← hidle, List.set_getElem_self] at hcompare
  rw [Run.run, hselect, Option.bind_some, Run.run, hincrement, Option.bind_some, Run.run, hcompare]
  rfl

/-! ## Indices in range -/

/-- Every index that some caller used for the pool is one of the pool. -/
def InRange (poolSize : BitVec 64) (s : IoServiceProvide) : Prop :=
  ∀ stage ∈ s.callers, ∀ i, stage.index = some i → i < poolSize

/-- The index is at the end of the pool, and a call that moved it on has not compared it yet. -/
def ResetDue (poolSize : BitVec 64) (s : IoServiceProvide) : Prop :=
  s.nextIoService = poolSize ∧ ∃ stage ∈ s.callers, stage.comparing = true

instance (poolSize : BitVec 64) (s : IoServiceProvide) : Decidable (s.ResetDue poolSize) :=
  inferInstanceAs (Decidable (_ ∧ _))

/-- While a reset is due, calls neither select a service nor move the index on. -/
def Waits (poolSize : BitVec 64) (s : IoServiceProvide) : Event → Prop
  | .compare _ => True
  | _          => ¬ s.ResetDue poolSize

instance (poolSize : BitVec 64) (s : IoServiceProvide) (e : Event) : Decidable (s.Waits poolSize e) :=
  match e with
  | .select _    => inferInstanceAs (Decidable (¬ _))
  | .increment _ => inferInstanceAs (Decidable (¬ _))
  | .compare _   => inferInstanceAs (Decidable True)

/-- **The invariant.** Used indices are in range; so is the next one, unless its reset is due. -/
structure Turning (poolSize : BitVec 64) (s : IoServiceProvide) : Prop where
  inRange  : s.InRange poolSize
  position : s.nextIoService < poolSize ∨ s.ResetDue poolSize

theorem inRange_start (threads : Nat) : (start threads).InRange poolSize := by
  intro stage hstage i hi
  obtain ⟨_, rfl⟩ := List.mem_replicate.mp hstage
  cases hi

theorem Turning.start (hpool : 0 < poolSize) (threads : Nat) : Turning poolSize (start threads) :=
  ⟨inRange_start threads, Or.inl hpool⟩

/-- A caller enters a stage with an index in range, or without one. -/
theorem InRange.set {next : BitVec 64} (h : s.InRange poolSize) {stage : CallStage}
    (hstage : ∀ i, stage.index = some i → i < poolSize) :
    InRange poolSize ⟨next, s.callers.set c stage⟩ := by
  intro stage' hmem
  rcases List.mem_or_eq_of_mem_set hmem with hmem | rfl
  · exact h stage' hmem
  · exact hstage

theorem Turning.step (hpool : 0 < poolSize) (h : Turning poolSize s) {e : Event} (hwaits : s.Waits poolSize e)
    (hs : IoServiceProvide.step poolSize s e = some s') : Turning poolSize s' := by
  cases e with
  | select c =>
      obtain ⟨_, rfl⟩ := step_select.mp hs
      have hlt : s.nextIoService < poolSize := h.position.resolve_right hwaits
      refine ⟨h.inRange.set ?_, Or.inl hlt⟩
      intro i hi
      cases hi
      exact hlt
  | increment c =>
      obtain ⟨i, hc, rfl⟩ := step_increment.mp hs
      have hlt : s.nextIoService < poolSize := h.position.resolve_right hwaits
      refine ⟨h.inRange.set (fun j hj => h.inRange _ (List.mem_of_getElem? hc) j hj), ?_⟩
      by_cases hend : s.nextIoService + 1 = poolSize
      · -- the caller itself is the one to reset it
        refine Or.inr ⟨hend, .incremented i, ?_, rfl⟩
        exact List.mem_set (List.getElem?_eq_some_iff.mp hc).1 _
      · left
        show s.nextIoService + 1 < poolSize
        bv_omega
  | compare c =>
      obtain ⟨i, _, rfl⟩ := step_compare.mp hs
      refine ⟨h.inRange.set (fun i hi => by cases hi), Or.inl ?_⟩
      show (if s.nextIoService = poolSize then 0 else s.nextIoService) < poolSize
      by_cases hend : s.nextIoService = poolSize
      · rwa [if_pos hend]
      · rw [if_neg hend]
        exact h.position.resolve_right (fun hdue => hend hdue.1)

/-- **Every index is in range while no call overtakes a reset.** For every pool that is not empty, any number of
    threads and any order of their steps: in every state of a run whose steps all wait for a reset that is due,
    the indices used are below the size of the pool. -/
theorem indices_in_range (hpool : 0 < poolSize) (threads : Nat) {es : List Event}
    (hwaits : Run.Meets (step poolSize) (Waits poolSize) (start threads) es)
    (hrun : Run.run (step poolSize) (start threads) es = some s) : s.InRange poolSize := by
  have hturning : Turning poolSize s :=
    Run.run_meets (step poolSize) (Turning.start hpool threads) (fun _ _ _ h hw hs => h.step hpool hw hs)
      hwaits hrun
  exact hturning.inRange

/-- Two threads share a pool of one: the second one selects after the reset. -/
theorem indices_in_range_turns : InRange 1 ⟨0, [.idle, .selected 0]⟩ := by
  have hwaits : Run.Meets (step 1) (Waits 1) (start 2) [.select 0, .increment 0, .compare 0, .select 1] := by
    rw [Run.meets_cons _ rfl, Run.meets_cons _ rfl, Run.meets_cons _ rfl, Run.meets_cons _ rfl]
    exact ⟨by decide, by decide, trivial, by decide, trivial⟩
  exact indices_in_range (by decide) 2 hwaits rfl

/-- Selected before it, the index is the size of the pool. -/
theorem indices_out_of_range :
    ¬ ∀ (poolSize : BitVec 64) (threads : Nat) (es : List Event) (s : IoServiceProvide), 0 < poolSize →
      Run.run (step poolSize) (start threads) es = some s → s.InRange poolSize := by
  intro h
  have hrange := h 1 2 [.select 0, .increment 0, .select 1] ⟨1, [.incremented 0, .selected 1]⟩ (by decide) rfl
  exact absurd (hrange (.selected 1) (by decide) 1 rfl) (by decide)

/-! ## Why the condition is needed, and when it is met -/

/-- A step that does not wait uses an index out of range, or leaves the index behind the end of the pool. -/
theorem overtaken {e : Event} (hwaits : ¬ s.Waits poolSize e) (hs : step poolSize s e = some s') :
    (¬ s'.InRange poolSize) ∨ s'.nextIoService = poolSize + 1 := by
  cases e with
  | select c =>
      obtain ⟨hend, _⟩ := not_not.mp hwaits
      obtain ⟨hc, rfl⟩ := step_select.mp hs
      refine Or.inl (fun hrange => ?_)
      have hmem := List.mem_set (List.getElem?_eq_some_iff.mp hc).1 (CallStage.selected s.nextIoService)
      have hlt := hrange _ hmem _ rfl
      rw [hend] at hlt
      exact absurd hlt (BitVec.lt_irrefl _)
  | increment c =>
      obtain ⟨hend, _⟩ := not_not.mp hwaits
      obtain ⟨i, _, rfl⟩ := step_increment.mp hs
      exact Or.inr (congrArg (· + 1) hend)
  | compare c => exact absurd trivial hwaits

/-- A caller that is alone has nobody to wait for. -/
theorem waits_of_alone {e : Event} (halone : s.callers.length = 1) (hs : step poolSize s e = some s') :
    s.Waits poolSize e := by
  obtain ⟨only, honly⟩ := List.length_eq_one_iff.mp halone
  have hstage : ∀ {c : Nat} {stage : CallStage}, s.callers[c]? = some stage → stage = only := by
    intro c stage hc
    have hmem := List.mem_of_getElem? hc
    rw [honly] at hmem
    exact List.mem_singleton.mp hmem
  have hdue : s.ResetDue poolSize → only.comparing = true := by
    rintro ⟨_, stage, hmem, hcomparing⟩
    rw [honly] at hmem
    rwa [← List.mem_singleton.mp hmem]
  cases e with
  | select c =>
      obtain ⟨hc, _⟩ := step_select.mp hs
      intro hreset
      have hcomparing := hdue hreset
      rw [← hstage hc] at hcomparing
      cases hcomparing
  | increment c =>
      obtain ⟨i, hc, _⟩ := step_increment.mp hs
      intro hreset
      have hcomparing := hdue hreset
      rw [← hstage hc] at hcomparing
      cases hcomparing
  | compare c => exact trivial

theorem length_callers {e : Event} (hs : step poolSize s e = some s') :
    s'.callers.length = s.callers.length := by
  cases e with
  | select c =>
      obtain ⟨_, rfl⟩ := step_select.mp hs
      exact List.length_set
  | increment c =>
      obtain ⟨_, _, rfl⟩ := step_increment.mp hs
      exact List.length_set
  | compare c =>
      obtain ⟨_, _, rfl⟩ := step_compare.mp hs
      exact List.length_set

/-- So with one thread every index is in range. -/
theorem alone_in_range (hpool : 0 < poolSize) {es : List Event}
    (hrun : Run.run (step poolSize) (start 1) es = some s) : s.InRange poolSize := by
  have hboth : Turning poolSize s ∧ s.callers.length = 1 := by
    refine Run.run_invariant (step poolSize) (I := fun s => Turning poolSize s ∧ s.callers.length = 1)
      ⟨Turning.start hpool 1, rfl⟩ ?_ hrun
    rintro t e u ⟨hturning, halone⟩ hu
    exact ⟨hturning.step hpool (waits_of_alone halone hu) hu, (length_callers hu).trans halone⟩
  exact hboth.1.inRange

end IoServiceProvide

end BServer
