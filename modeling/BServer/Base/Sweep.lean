import Mathlib.Data.List.TakeWhile

/-!
# `Base.Sweep` — one pass over a list, that an item may cut short

A loop visits the items of a list in order. A visit changes the state, or it throws, and then the loop is left
as it stands and nobody visits the rest. `Sweep.run` is that loop, for any state and any items.

What a proof about such a loop needs is one lemma about one visit. Five rules turn it into a statement about
the pass:

* `run_induction` — what every visit preserves holds at the end, whether the pass was completed or not;
* `run_sim` — what two kinds of visit do side by side, their passes do;
* `run_reached` — a pass in which no visit throws reaches every item, and what a visit establishes lasts;
* `run_served_iff` — when it is known which items throw, the items served are exactly those before the first
  of them;
* `runThrowing_served_iff` — the same for visits that throw after a part of their work (`runThrowing`), where what
  throws may depend on how far the pass has come (`reached`).
-/

namespace Sweep

variable {σ ν : Type}

/-- Visit the items in order; `none` is a visit that threw, having changed nothing. -/
def run (visit : ν → σ → Option σ) : List ν → σ → σ
  | [], s => s
  | v :: vs, s =>
      match visit v s with
      | none    => s
      | some s' => run visit vs s'

variable {visit : ν → σ → Option σ}

theorem run_cons_none {v : ν} {vs : List ν} {s : σ} (h : visit v s = none) : run visit (v :: vs) s = s := by
  simp only [run, h]

theorem run_cons_some {v : ν} {vs : List ν} {s s' : σ} (h : visit v s = some s') :
    run visit (v :: vs) s = run visit vs s' := by
  simp only [run, h]

/-- A pass goes on where no visit throws. -/
theorem run_append {vs ws : List ν} {s : σ} (h : ∀ v ∈ vs, ∀ s, visit v s ≠ none) :
    run visit (vs ++ ws) s = run visit ws (run visit vs s) := by
  induction vs generalizing s with
  | nil => rfl
  | cons v vs ih =>
      obtain ⟨s', hv⟩ := Option.ne_none_iff_exists'.mp (h v List.mem_cons_self s)
      rw [List.cons_append, run_cons_some hv, run_cons_some hv]
      exact ih (fun w hw => h w (List.mem_cons_of_mem v hw))

/-- **What every visit preserves.** -/
theorem run_induction {P : σ → Prop} {vs : List ν} {s : σ} (h : P s)
    (hstep : ∀ v ∈ vs, ∀ s s', P s → visit v s = some s' → P s') : P (run visit vs s) := by
  induction vs generalizing s with
  | nil => exact h
  | cons v vs ih =>
      cases hv : visit v s with
      | none =>
          rw [run_cons_none hv]
          exact h
      | some s' =>
          rw [run_cons_some hv]
          exact ih (hstep v List.mem_cons_self s s' h hv)
            (fun u hu => hstep u (List.mem_cons_of_mem v hu))

/-- **Two passes side by side.** Where the visits of one do what those of the other do, up to a relation, so do
    the passes. -/
theorem run_sim {τ : Type} {visit' : ν → τ → Option τ} {R : σ → τ → Prop} {vs : List ν} {s : σ} {t : τ} (h : R s t)
    (hstep : ∀ v ∈ vs, ∀ s t, R s t →
      (visit v s = none ∧ visit' v t = none) ∨
      ∃ s' t', visit v s = some s' ∧ visit' v t = some t' ∧ R s' t') :
    R (run visit vs s) (run visit' vs t) := by
  induction vs generalizing s t with
  | nil => exact h
  | cons v vs ih =>
      rcases hstep v List.mem_cons_self s t h with ⟨hs, ht⟩ | ⟨s', t', hs, ht, h'⟩
      · rw [run_cons_none hs, run_cons_none ht]
        exact h
      · rw [run_cons_some hs, run_cons_some ht]
        exact ih h' fun u hu => hstep u (List.mem_cons_of_mem v hu)

/-- **A pass that completes.** Under an invariant that keeps every visit from throwing, each item is reached,
    and what its visit establishes is still there at the end. -/
theorem run_reached {P : σ → Prop} {Q : ν → σ → Prop} {vs : List ν} {s : σ} (h : P s)
    (hstep : ∀ v ∈ vs, ∀ s, P s → ∃ s', visit v s = some s' ∧ P s' ∧ Q v s')
    (hlasts : ∀ u, ∀ v ∈ vs, ∀ s s', P s → Q u s → visit v s = some s' → Q u s') :
    P (run visit vs s) ∧ ∀ u, Q u s ∨ u ∈ vs → Q u (run visit vs s) := by
  induction vs generalizing s with
  | nil =>
      refine ⟨h, fun u hu => ?_⟩
      rcases hu with hu | hu
      · exact hu
      · cases hu
  | cons v vs ih =>
      obtain ⟨s', hv, hP, hQ⟩ := hstep v List.mem_cons_self s h
      rw [run_cons_some hv]
      obtain ⟨hend, hreached⟩ := ih hP (fun u hu => hstep u (List.mem_cons_of_mem v hu))
        (fun u w hw => hlasts u w (List.mem_cons_of_mem v hw))
      refine ⟨hend, fun u hu => hreached u ?_⟩
      rcases hu with hu | hu
      · exact Or.inl (hlasts u v List.mem_cons_self s s' h hu hv)
      · rcases List.mem_cons.mp hu with rfl | hu
        · exact Or.inl hQ
        · exact Or.inr hu

variable (visit) in
/-- **A pass that is cut short.** Visits throw exactly on the items that are `blocked`; any other visit serves
    its own item, if there is something to do for it, and no other. Then an item is served by the pass exactly
    when it stands before the first that is blocked. -/
theorem run_served_iff (Served : ν → σ → Prop) {P : σ → Prop} {blocked : ν → Bool} {Work : ν → Prop}
    {vs : List ν} {s : σ} (h : P s)
    (hblocked : ∀ v ∈ vs, ∀ s, P s → blocked v = true → visit v s = none)
    (hstep : ∀ v ∈ vs, ∀ s, P s → blocked v = false → ∃ s', visit v s = some s' ∧ P s' ∧
      (Work v → Served v s') ∧ ∀ u, (Served u s → Served u s') ∧ (Served u s' → Served u s ∨ u = v))
    {u : ν} (hu : Work u) :
    Served u (run visit vs s) ↔ Served u s ∨ u ∈ vs.takeWhile (fun v => !blocked v) := by
  induction vs generalizing s with
  | nil => simp [run]
  | cons v vs ih =>
      cases hb : blocked v with
      | true =>
          rw [run_cons_none (hblocked v List.mem_cons_self s h hb), List.takeWhile_cons_of_neg (by simp [hb])]
          simp
      | false =>
          obtain ⟨s', hv, hP, hserves, hother⟩ := hstep v List.mem_cons_self s h hb
          rw [run_cons_some hv, List.takeWhile_cons_of_pos (by simp [hb]), List.mem_cons,
            ih hP (fun w hw => hblocked w (List.mem_cons_of_mem v hw))
              (fun w hw => hstep w (List.mem_cons_of_mem v hw))]
          constructor
          · rintro (hs | hmem)
            · rcases (hother u).2 hs with hs | rfl
              · exact Or.inl hs
              · exact Or.inr (Or.inl rfl)
            · exact Or.inr (Or.inr hmem)
          · rintro (hs | rfl | hmem)
            · exact Or.inl ((hother u).1 hs)
            · exact Or.inl (hserves hu)
            · exact Or.inr hmem

/-! ## Visits that throw half way -/

/-- Visit the items in order; a visit that threw left the state `thrown` says. -/
def runThrowing (visit : ν → σ → Option σ) (thrown : ν → σ → σ) : List ν → σ → σ
  | [], s => s
  | v :: vs, s =>
      match visit v s with
      | none    => thrown v s
      | some s' => runThrowing visit thrown vs s'

/-- The items a pass comes to, the one that throws included. Whether an item throws depends on what `next` makes
    of the items before it. -/
def reached {α : Type} (blocked : α → ν → Bool) (next : ν → α → α) : α → List ν → List ν
  | _, [] => []
  | a, v :: vs => if blocked a v then [v] else v :: reached blocked next (next v a) vs

section Throwing

variable {thrown : ν → σ → σ}

theorem runThrowing_cons_none {v : ν} {vs : List ν} {s : σ} (h : visit v s = none) :
    runThrowing visit thrown (v :: vs) s = thrown v s := by
  simp only [runThrowing, h]

theorem runThrowing_cons_some {v : ν} {vs : List ν} {s s' : σ} (h : visit v s = some s') :
    runThrowing visit thrown (v :: vs) s = runThrowing visit thrown vs s' := by
  simp only [runThrowing, h]

/-- Visits that throw before they did anything. -/
theorem runThrowing_eq_run (h : ∀ v s, visit v s = none → thrown v s = s) (vs : List ν) (s : σ) :
    runThrowing visit thrown vs s = run visit vs s := by
  induction vs generalizing s with
  | nil => rfl
  | cons v vs ih =>
      cases hv : visit v s with
      | none => rw [runThrowing_cons_none hv, run_cons_none hv, h v s hv]
      | some s' => rw [runThrowing_cons_some hv, run_cons_some hv, ih]

variable (visit thrown) in
/-- **A pass that is cut short, by a visit that did its part.** Every visit serves its own item and no other, the
    one that throws as well, as far as there is something to do for it. Then an item is served by the pass exactly
    when the pass came to it. -/
theorem runThrowing_served_iff {α : Type} (Served : ν → σ → Prop) {P : α → σ → Prop} {blocked : α → ν → Bool}
    {next : ν → α → α} {Work : ν → Prop} {vs : List ν} {a : α} {s : σ} (h : P a s)
    (hblocked : ∀ v ∈ vs, ∀ a s, P a s → blocked a v = true → visit v s = none ∧
      ∀ u, Work u → (Served u (thrown v s) ↔ Served u s ∨ u = v))
    (hstep : ∀ v ∈ vs, ∀ a s, P a s → blocked a v = false → ∃ s', visit v s = some s' ∧ P (next v a) s' ∧
      ∀ u, Work u → (Served u s' ↔ Served u s ∨ u = v))
    {u : ν} (hu : Work u) :
    Served u (runThrowing visit thrown vs s) ↔ Served u s ∨ u ∈ reached blocked next a vs := by
  induction vs generalizing a s with
  | nil => simp [runThrowing, reached]
  | cons v vs ih =>
      cases hb : blocked a v with
      | true =>
          obtain ⟨hv, hserved⟩ := hblocked v List.mem_cons_self a s h hb
          rw [runThrowing_cons_none hv, hserved u hu, reached, if_pos hb, List.mem_singleton]
      | false =>
          obtain ⟨s', hv, hP, hserved⟩ := hstep v List.mem_cons_self a s h hb
          have hgoes : reached blocked next a (v :: vs) = v :: reached blocked next (next v a) vs :=
            if_neg (by simp [hb])
          rw [runThrowing_cons_some hv, hgoes, List.mem_cons, ← or_assoc, ← hserved u hu]
          exact ih hP (fun w hw => hblocked w (List.mem_cons_of_mem v hw))
            (fun w hw => hstep w (List.mem_cons_of_mem v hw))

end Throwing

end Sweep
