import Mathlib.Data.List.Forall2
import Mathlib.Data.List.Induction

/-!
# `Base.Run` — runs of a partial step function

A system is a function `step : σ → ε → Option σ`: an event either happens, or is not enabled. A run is the
list of its events, oldest first. The one induction every invariant proof needs is `run_induction`: a
property of *history and state* that holds at the start and survives each enabled event holds after every
run; `run_invariant` is its history-free special case, and `run_meets` the one for runs whose events all meet a
condition.
-/

namespace Run

variable {σ ε : Type} (step : σ → ε → Option σ)

/-- The state after the events, or `none` if some event was not enabled when its turn came. -/
def run (s : σ) : List ε → Option σ
  | []      => some s
  | e :: es => (step s e).bind (fun s' => run s' es)

theorem run_append (s : σ) (es fs : List ε) :
    run step s (es ++ fs) = (run step s es).bind (fun s' => run step s' fs) := by
  induction es generalizing s with
  | nil => rfl
  | cons e es ih =>
      cases he : step s e with
      | none => simp [run, he]
      | some s' => simpa [run, he] using ih s'

/-- A run ends in an enabled last event, or is empty. -/
theorem run_snoc {s t : σ} {es : List ε} {e : ε} :
    run step s (es ++ [e]) = some t ↔ ∃ u, run step s es = some u ∧ step u e = some t := by
  rw [run_append, Option.bind_eq_some_iff]
  simp [run]

/-- **Induction over runs.** `P` may speak of the whole history. -/
theorem run_induction {P : List ε → σ → Prop} {s : σ} (hnil : P [] s)
    (hstep : ∀ es t e u, run step s es = some t → P es t → step t e = some u → P (es ++ [e]) u)
    {es : List ε} {t : σ} (hrun : run step s es = some t) : P es t := by
  induction es using List.reverseRecOn generalizing t with
  | nil =>
      have hst : s = t := Option.some.inj hrun
      exact hst ▸ hnil
  | append_singleton es e ih =>
      obtain ⟨u, hu, he⟩ := (run_snoc step).mp hrun
      exact hstep es u e t hu (ih hu) he

/-- **Invariants.** What the first state satisfies and every event preserves holds after every run. -/
theorem run_invariant {I : σ → Prop} {s : σ} (hinit : I s)
    (hstep : ∀ t e u, I t → step t e = some u → I u)
    {es : List ε} {t : σ} (hrun : run step s es = some t) : I t :=
  run_induction step (P := fun _ t => I t) hinit (fun _ t e u _ hi he => hstep t e u hi he) hrun

/-! ## Runs whose events meet a condition -/

/-- Every event of a run meets the condition `A` in the state it comes in. -/
def Meets (A : σ → ε → Prop) (s : σ) : List ε → Prop
  | []      => True
  | e :: es => A s e ∧ ∀ s', step s e = some s' → Meets A s' es

theorem meets_cons {A : σ → ε → Prop} {s u : σ} {e : ε} {es : List ε} (hu : step s e = some u) :
    Meets step A s (e :: es) ↔ A s e ∧ Meets step A u es := by
  refine and_congr_right fun _ => ⟨fun h => h u hu, fun h s' hs' => ?_⟩
  rw [hu] at hs'
  cases hs'
  exact h

/-- A condition on the events alone is met by a run of such events. -/
theorem meets_of_forall {A : ε → Prop} {es : List ε} (h : ∀ e ∈ es, A e) (s : σ) : Meets step (fun _ e => A e) s es := by
  induction es generalizing s with
  | nil => trivial
  | cons e es ih =>
      exact ⟨h e List.mem_cons_self, fun s' _ => ih (fun f hf => h f (List.mem_cons_of_mem e hf)) s'⟩

theorem forall_of_meets {A : ε → Prop} {s t : σ} {es : List ε} (h : Meets step (fun _ e => A e) s es)
    (hrun : run step s es = some t) : ∀ e ∈ es, A e := by
  induction es generalizing s with
  | nil => exact fun e he => (List.not_mem_nil he).elim
  | cons e es ih =>
      obtain ⟨u, hu, hrun⟩ := Option.bind_eq_some_iff.mp hrun
      obtain ⟨he, hmeets⟩ := (meets_cons step hu).mp h
      exact List.forall_mem_cons.mpr ⟨he, ih hmeets hrun⟩

/-- **Invariants under a condition.** What the first state satisfies and every event that meets the condition
    preserves holds after every run whose events all do. -/
theorem run_meets {I : σ → Prop} {A : σ → ε → Prop} {s : σ} (hinit : I s)
    (hstep : ∀ t e u, I t → A t e → step t e = some u → I u) {es : List ε} {t : σ}
    (hmeets : Meets step A s es) (hrun : run step s es = some t) : I t := by
  induction es generalizing s with
  | nil =>
      have hst : s = t := Option.some.inj hrun
      exact hst ▸ hinit
  | cons e es ih =>
      obtain ⟨he, hrest⟩ := hmeets
      obtain ⟨u, hu, hrun⟩ := Option.bind_eq_some_iff.mp hrun
      exact ih (hstep s e u hinit he hu) (hrest u hu) hrun

/-! ## Properties of every point of a history -/

/-- What holds at every point of a history held at every earlier point, and holds at the last one. -/
theorem forall_split_snoc {A : List ε → ε → Prop} {es : List ε} {e : ε} :
    (∀ pre f post, es ++ [e] = pre ++ f :: post → A pre f) ↔
      (∀ pre f post, es = pre ++ f :: post → A pre f) ∧ A es e := by
  constructor
  · intro h
    refine ⟨?_, h es e [] rfl⟩
    intro pre f post hes
    exact h pre f (post ++ [e]) (by rw [hes, List.append_assoc, List.cons_append])
  · rintro ⟨h, hlast⟩ pre f post hes
    rcases List.eq_nil_or_concat post with rfl | ⟨post, g, rfl⟩
    · obtain ⟨rfl, hf⟩ := List.append_inj' hes rfl
      cases hf
      exact hlast
    · rw [List.concat_eq_append, ← List.cons_append, ← List.append_assoc] at hes
      exact h pre f post (List.append_inj' hes rfl).1

/-- There is no point in the empty history. -/
theorem forall_split_nil {A : List ε → ε → Prop} (pre : List ε) (f : ε) (post : List ε)
    (h : [] = pre ++ f :: post) : A pre f :=
  absurd h.symm (List.append_ne_nil_of_right_ne_nil _ (List.cons_ne_nil _ _))

/-- `P` relates the states before and after every event of the run. -/
def Throughout (P : σ → σ → Prop) (s : σ) (es : List ε) : Prop :=
  ∀ pre e post, es = pre ++ e :: post → ∀ t u, run step s pre = some t → step t e = some u → P t u

theorem throughout_nil (P : σ → σ → Prop) (s : σ) : Throughout step P s [] := forall_split_nil

/-- Throughout a run and its next event. -/
theorem throughout_snoc {P : σ → σ → Prop} {s t u : σ} {es : List ε} {e : ε} (ht : run step s es = some t)
    (hu : step t e = some u) : Throughout step P s (es ++ [e]) ↔ Throughout step P s es ∧ P t u := by
  refine forall_split_snoc.trans (and_congr_right fun _ => ?_)
  constructor
  · intro h
    exact h t u ht hu
  · intro h t' u' ht' hu'
    rw [ht] at ht'
    cases ht'
    rw [hu] at hu'
    cases hu'
    exact h

theorem Throughout.prefix {P : σ → σ → Prop} {s : σ} {es fs : List ε}
    (h : Throughout step P s (es ++ fs)) : Throughout step P s es := by
  intro pre e post he
  exact h pre e (post ++ fs) (by rw [he, List.append_assoc, List.cons_append])

/-! ## What a run puts out -/

/-- All that the events of a run put out, each in the state it comes in. -/
def collect {α : Type} (out : σ → ε → List α) (s : σ) : List ε → List α
  | []      => []
  | e :: es => out s e ++ match step s e with
    | none => []
    | some s' => collect out s' es

theorem collect_snoc {α : Type} (out : σ → ε → List α) {s t : σ} {es : List ε} (hrun : run step s es = some t) (e : ε) :
    collect step out s (es ++ [e]) = collect step out s es ++ out t e := by
  induction es generalizing s with
  | nil =>
      cases hrun
      rw [List.nil_append, collect, collect, List.nil_append]
      split
      · exact List.append_nil _
      · exact List.append_nil _
  | cons f es ih =>
      obtain ⟨u, hu, hrun⟩ := Option.bind_eq_some_iff.mp hrun
      rw [List.cons_append, collect, collect, hu]
      simp only [ih hrun, List.append_assoc]

/-! ## Runs that come to an end

A measure that no event raises and that falls with each event of one kind, the events of the parties that are to
come to rest, bounds the number of those. Where one of them can happen unless all is done, they bring it there in
whatever order they happen (`Inevitably`). -/

/-- The sum of a measure over the members of a system. -/
def total {τ : Type} (μ : τ → Nat) (ts : List τ) : Nat := ts.foldr (fun t n => μ t + n) 0

section Total

variable {τ : Type} (μ : τ → Nat)

theorem total_cons (t : τ) (ts : List τ) : total μ (t :: ts) = μ t + total μ ts := rfl

/-- One member goes on. -/
theorem total_set {ts : List τ} {i : Nat} {t : τ} (h : ts[i]? = some t) (t' : τ) :
    total μ (ts.set i t') + μ t = total μ ts + μ t' := by
  induction ts generalizing i with
  | nil => cases h
  | cons a ts ih =>
      cases i with
      | zero =>
          cases h
          rw [List.set_cons_zero, total_cons, total_cons]
          omega
      | succ i =>
          have hrest := ih (i := i) h
          rw [List.set_cons_succ, total_cons, total_cons]
          omega

theorem total_le {ts : List τ} {n : Nat} (h : ∀ t ∈ ts, μ t ≤ n) : total μ ts ≤ n * ts.length := by
  induction ts with
  | nil => exact Nat.zero_le _
  | cons t ts ih =>
      have ht := h t List.mem_cons_self
      have hrest := ih fun u hu => h u (List.mem_cons_of_mem t hu)
      rw [total_cons, List.length_cons, Nat.mul_succ]
      omega

theorem total_eq_zero_iff {ts : List τ} : total μ ts = 0 ↔ ∀ t ∈ ts, μ t = 0 := by
  induction ts with
  | nil => exact iff_of_true rfl fun t ht => (List.not_mem_nil ht).elim
  | cons t ts ih => rw [total_cons, Nat.add_eq_zero_iff, ih, List.forall_mem_cons]

/-- All of them go on, each in its own way. -/
theorem total_forall₂_le {R : τ → τ → Prop} (hR : ∀ t u, R t u → μ u ≤ μ t) {ts us : List τ}
    (h : List.Forall₂ R ts us) : total μ us ≤ total μ ts := by
  induction h with
  | nil => exact Nat.le_refl 0
  | cons hr _ ih =>
      have ht := hR _ _ hr
      rw [total_cons, total_cons]
      omega

end Total

/-- What stands at a place of the second list is related to what stands there in the first. -/
theorem forall₂_getElem? {α β : Type} {R : α → β → Prop} {as : List α} {bs : List β} (h : List.Forall₂ R as bs)
    {n : Nat} {b : β} (hb : bs[n]? = some b) : ∃ a, as[n]? = some a ∧ R a b := by
  induction h generalizing n with
  | nil => cases hb
  | cons hr _ ih =>
      cases n with
      | zero =>
          cases hb
          exact ⟨_, rfl, hr⟩
      | succ n => exact ih hb

/-- **On every way.** However the moves `own` are chosen, the system comes to a state that is `final`, and until it
    does there is one to choose. -/
inductive Inevitably (own : σ → ε → Prop) (final : σ → Prop) : σ → Prop where
  | now {s : σ} (h : final s) : Inevitably own final s
  | later {s : σ} (hgo : ∃ e u, own s e ∧ step s e = some u)
      (hall : ∀ e u, own s e → step s e = some u → Inevitably own final u) : Inevitably own final s

section Inevitable

variable {own : σ → ε → Prop} {final : σ → Prop}

/-- **A measure that falls.** It may be into any order in which nothing falls forever. -/
theorem inevitably {I : σ → Prop} {α : Type} {r : α → α → Prop} (hwf : WellFounded r) (μ : σ → α)
    (hown : ∀ t e u, I t → own t e → step t e = some u → I u ∧ r (μ u) (μ t))
    (hgo : ∀ t, I t → ¬ final t → ∃ e u, own t e ∧ step t e = some u) {s : σ} (hs : I s) :
    Inevitably step own final s := by
  induction hm : μ s using hwf.induction generalizing s with
  | h m ih =>
      by_cases hfinal : final s
      · exact .now hfinal
      · refine .later (hgo s hs hfinal) fun e u he hu => ?_
        obtain ⟨hI, hfall⟩ := hown s e u hs he hu
        exact ih (μ u) (hm ▸ hfall) hI rfl

theorem Inevitably.mono {final' : σ → Prop} {s : σ} (h : Inevitably step own final s)
    (hf : ∀ t, final t → final' t) : Inevitably step own final' s := by
  induction h with
  | now h => exact .now (hf _ h)
  | later hgo _ ih => exact .later hgo ih

/-- One way of choosing them. -/
theorem Inevitably.exists_run {s : σ} (h : Inevitably step own final s) :
    ∃ es t, run step s es = some t ∧ final t ∧ Meets step own s es := by
  induction h with
  | now h => exact ⟨[], _, rfl, h, trivial⟩
  | later hgo _ ih =>
      obtain ⟨e, u, he, hu⟩ := hgo
      obtain ⟨es, t, hrun, hfinal, hmeets⟩ := ih e u he hu
      refine ⟨e :: es, t, ?_, hfinal, (meets_cons step hu).mpr ⟨he, hmeets⟩⟩
      rw [run, hu]
      exact hrun

end Inevitable

section Ending

variable {I : σ → Prop} (own : ε → Bool) (μ : σ → Nat)

/-- **How many own events there are.** -/
theorem countP_own_le (hkeep : ∀ t e u, I t → step t e = some u → I u)
    (hown : ∀ t e u, I t → own e = true → step t e = some u → μ u < μ t)
    (hother : ∀ t e u, I t → step t e = some u → μ u ≤ μ t) {s t : σ} {es : List ε} (hs : I s)
    (hrun : run step s es = some t) : es.countP own + μ t ≤ μ s := by
  induction es generalizing s with
  | nil =>
      cases hrun
      exact Nat.le_of_eq (Nat.zero_add _)
  | cons e es ih =>
      obtain ⟨u, hu, hrun⟩ := Option.bind_eq_some_iff.mp hrun
      have hrest := ih (hkeep s e u hs hu) hrun
      by_cases he : own e = true
      · have hfall := hown s e u hs he hu
        rw [List.countP_cons_of_pos he]
        omega
      · have hle := hother s e u hs hu
        rw [List.countP_cons_of_neg he]
        omega

/-- **They can all be brought to their end**, by own events alone. -/
theorem finishes (final : σ → Prop) (hkeep : ∀ t e u, I t → step t e = some u → I u)
    (hown : ∀ t e u, I t → own e = true → step t e = some u → μ u < μ t)
    (hgo : ∀ t, I t → ¬ final t → ∃ e u, own e = true ∧ step t e = some u) {s : σ} (hs : I s) :
    ∃ es t, run step s es = some t ∧ final t ∧ I t ∧ ∀ e ∈ es, own e = true := by
  have hinev : Inevitably step (fun _ e => own e = true) (fun t => final t ∧ I t) s :=
    inevitably step Nat.lt_wfRel.wf μ
      (fun t e u ht he hu => ⟨hkeep t e u ht hu, hown t e u ht he hu⟩)
      (fun t ht hnot => hgo t ht fun h => hnot ⟨h, ht⟩) hs
  obtain ⟨es, t, hrun, ⟨hfinal, ht⟩, hmeets⟩ := hinev.exists_run
  exact ⟨es, t, hrun, hfinal, ht, forall_of_meets step hmeets hrun⟩

end Ending

end Run
