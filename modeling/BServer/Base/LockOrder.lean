import BServer.Base.Run

/-!
# `Base.LockOrder` — threads that take ranked locks

A thread is what it still does with locks, and the locks it holds. Taking a lock waits until nobody holds it, the
thread itself included. When every thread takes only locks that rank above all it holds, and gives everything
back in the end (`Ordered`), no run can get stuck: the holder of the lock a thread waits for either goes on, or
waits for a lock of higher rank, and ranks do not rise for ever (`exists_step`). So every run can be completed,
and is, after as many steps as there are operations (`completes`, `run_length`).
-/

namespace LockOrder

inductive Op (κ : Type) where
  | acquire (l : κ)
  | release (l : κ)
deriving DecidableEq

structure Thread (κ : Type) where
  held : List κ
  rest : List (Op κ)

variable {κ : Type} [DecidableEq κ]

/-! ## Steps -/

/-- Somebody holds the lock. -/
def taken (ts : List (Thread κ)) (l : κ) : Bool := ts.any (fun t => t.held.contains l)

/-- The next operation of the `i`-th thread, unless it has to wait or is done. -/
def step (ts : List (Thread κ)) (i : Nat) : Option (List (Thread κ)) :=
  match ts[i]? with
  | none => none
  | some ⟨_, []⟩ => none
  | some ⟨held, .acquire l :: rest⟩ => if taken ts l then none else some (ts.set i ⟨l :: held, rest⟩)
  | some ⟨held, .release l :: rest⟩ => some (ts.set i ⟨held.erase l, rest⟩)

theorem taken_iff {ts : List (Thread κ)} {l : κ} : taken ts l = true ↔ ∃ t ∈ ts, l ∈ t.held := by
  simp [taken]

theorem not_mem_of_not_taken {ts : List (Thread κ)} {l : κ} (h : ¬ taken ts l = true) {t : Thread κ}
    (ht : t ∈ ts) : l ∉ t.held := fun hl => h (taken_iff.mpr ⟨t, ht, hl⟩)

/-- **What a step does.** It takes a lock that was free, or gives one back. -/
theorem step_cases {ts us : List (Thread κ)} {i : Nat} (h : step ts i = some us) :
    ∃ held rest l, (ts[i]? = some ⟨held, .acquire l :: rest⟩ ∧ ¬ taken ts l = true ∧
        us = ts.set i ⟨l :: held, rest⟩) ∨
      (ts[i]? = some ⟨held, .release l :: rest⟩ ∧ us = ts.set i ⟨held.erase l, rest⟩) := by
  unfold step at h
  split at h
  · cases h
  · cases h
  · next held l rest ht =>
      split at h
      · cases h
      · next hfree =>
          cases h
          exact ⟨held, rest, l, Or.inl ⟨ht, hfree, rfl⟩⟩
  · next held l rest ht =>
      cases h
      exact ⟨held, rest, l, Or.inr ⟨ht, rfl⟩⟩

/-! ## Taking locks in order -/

variable (rank : κ → Nat)

/-- What is still to be done takes locks in rank order, and gives all of them back. -/
def Ordered : List κ → List (Op κ) → Prop
  | held, []                => held = []
  | held, .acquire l :: ops => (∀ k ∈ held, rank k < rank l) ∧ Ordered (l :: held) ops
  | held, .release l :: ops => l ∈ held ∧ Ordered (held.erase l) ops

/-- A piece of code that can stand where the locks `held` are held: it gives back what it takes. -/
def Balanced (held : List κ) (ops : List (Op κ)) : Prop :=
  ∀ more, Ordered rank held more → Ordered rank held (ops ++ more)

theorem Balanced.nil (held : List κ) : Balanced rank held [] := fun _ h => h

theorem Balanced.append {held : List κ} {ops ops' : List (Op κ)} (h : Balanced rank held ops)
    (h' : Balanced rank held ops') : Balanced rank held (ops ++ ops') := by
  intro more hmore
  rw [List.append_assoc]
  exact h _ (h' _ hmore)

theorem Balanced.flatMap {α : Type} {f : α → List (Op κ)} {held : List κ} {as : List α}
    (h : ∀ a ∈ as, Balanced rank held (f a)) : Balanced rank held (as.flatMap f) := by
  induction as with
  | nil => exact Balanced.nil rank held
  | cons a as ih =>
      exact (h a (List.mem_cons_self ..)).append rank (ih fun b hb => h b (List.mem_cons_of_mem a hb))

/-- A scoped lock: it is taken, the body runs, and it is given back. -/
def scopedLock (l : κ) (body : List (Op κ)) : List (Op κ) := .acquire l :: (body ++ [.release l])

theorem Balanced.scopedLock {held : List κ} {l : κ} {body : List (Op κ)} (hrank : ∀ k ∈ held, rank k < rank l)
    (hbody : Balanced rank (l :: held) body) : Balanced rank held (scopedLock l body) := by
  intro more hmore
  have hback : Ordered rank (l :: held) (.release l :: more) := by
    refine ⟨List.mem_cons_self .., ?_⟩
    rwa [List.erase_cons_head]
  show Ordered rank held (.acquire l :: ((body ++ [.release l]) ++ more))
  rw [List.append_assoc]
  exact ⟨hrank, hbody _ hback⟩

/-- Waiting on a condition gives the one lock back, and takes it again. -/
theorem Balanced.relock (l : κ) : Balanced rank [l] [.release l, .acquire l] := by
  intro more hmore
  refine ⟨List.mem_cons_self .., ?_⟩
  show Ordered rank ([l].erase l) (.acquire l :: more)
  rw [List.erase_cons_head]
  exact ⟨fun _ hk => (List.not_mem_nil hk).elim, hmore⟩

theorem Balanced.ordered {ops : List (Op κ)} (h : Balanced rank [] ops) : Ordered rank [] ops := by
  have hempty : Ordered rank ([] : List κ) [] := rfl
  have hops := h [] hempty
  rwa [List.append_nil] at hops

/-- Every thread is ordered. -/
def Disciplined (ts : List (Thread κ)) : Prop := ∀ t ∈ ts, Ordered rank t.held t.rest

/-- No lock has two holders. -/
def Exclusive (ts : List (Thread κ)) : Prop :=
  ∀ (i j : Nat) (t u : Thread κ) (l : κ), ts[i]? = some t → ts[j]? = some u → l ∈ t.held → l ∈ u.held → i = j

variable {rank} {ts us : List (Thread κ)} {i : Nat}

theorem Disciplined.step (h : Disciplined rank ts) (hs : step ts i = some us) : Disciplined rank us := by
  obtain ⟨held, rest, l, ⟨ht, _, rfl⟩ | ⟨ht, rfl⟩⟩ := step_cases hs
  · intro t hmem
    rcases List.mem_or_eq_of_mem_set hmem with hmem | rfl
    · exact h t hmem
    · exact (h _ (List.mem_of_getElem? ht)).2
  · intro t hmem
    rcases List.mem_or_eq_of_mem_set hmem with hmem | rfl
    · exact h t hmem
    · exact (h _ (List.mem_of_getElem? ht)).2

/-- A thread that holds more than before took only free locks. -/
theorem Exclusive.set (h : Exclusive ts) {t t' : Thread κ} (ht : ts[i]? = some t)
    (hheld : ∀ l ∈ t'.held, l ∈ t.held ∨ ¬ taken ts l = true) : Exclusive (ts.set i t') := by
  intro j k u v l hu hv hlu hlv
  have hother : ∀ {n : Nat} {w : Thread κ}, (ts.set i t')[n]? = some w → n ≠ i → ts[n]? = some w := by
    intro n w hn hne
    rwa [List.getElem?_set_ne (fun he => hne he.symm)] at hn
  have hself : ∀ {w : Thread κ}, (ts.set i t')[i]? = some w → w = t' := by
    intro w hw
    rw [List.getElem?_set_self (List.getElem?_eq_some_iff.mp ht).1] at hw
    exact (Option.some.inj hw).symm
  -- whoever else holds a lock of the thread held it before
  have hclash : ∀ {n : Nat} {w : Thread κ}, (ts.set i t')[n]? = some w → n ≠ i → l ∈ w.held → l ∈ t'.held →
      False := by
    intro n w hn hne hlw hlt
    rcases hheld l hlt with hold | hfree
    · exact hne (h n i w t l (hother hn hne) ht hlw hold)
    · exact not_mem_of_not_taken hfree (List.mem_of_getElem? (hother hn hne)) hlw
  by_cases hj : j = i
  · subst hj
    by_contra hk
    exact hclash hv (fun he => hk he.symm) hlv (hself hu ▸ hlu)
  · by_cases hk : k = i
    · subst hk
      exact (hclash hu hj hlu (hself hv ▸ hlv)).elim
    · exact h j k u v l (hother hu hj) (hother hv hk) hlu hlv

theorem Exclusive.step (h : Exclusive ts) (hs : step ts i = some us) : Exclusive us := by
  obtain ⟨held, rest, l, ⟨ht, hfree, rfl⟩ | ⟨ht, rfl⟩⟩ := step_cases hs
  · refine h.set ht fun k hk => ?_
    rcases List.mem_cons.mp hk with rfl | hk
    · exact Or.inr hfree
    · exact Or.inl hk
  · exact h.set ht fun k hk => Or.inl (List.mem_of_mem_erase hk)

/-! ## Nobody waits for ever -/

/-- Where no thread can go on, a thread that is not done waits for a lock that another one holds. -/
theorem waits_of_stuck (hstuck : ∀ i, step ts i = none) {t : Thread κ} (ht : t ∈ ts)
    (hrest : t.rest ≠ []) : ∃ l rest, t.rest = .acquire l :: rest ∧ ∃ u ∈ ts, l ∈ u.held := by
  obtain ⟨i, hi⟩ := List.getElem?_of_mem ht
  have hnone := hstuck i
  obtain ⟨held, rest⟩ := t
  cases rest with
  | nil => exact absurd rfl hrest
  | cons op rest =>
      unfold step at hnone
      rw [hi] at hnone
      cases op with
      | acquire l =>
          simp only at hnone
          split at hnone
          · next htaken => exact ⟨l, rest, rfl, taken_iff.mp htaken⟩
          · cases hnone
      | release l => cases hnone

variable (rank ts) in
omit [DecidableEq κ] in
/-- Finitely many threads wait for locks of bounded rank. -/
theorem waited_bounded : ∃ b, ∀ t ∈ ts, ∀ l rest, t.rest = .acquire l :: rest → rank l < b := by
  induction ts with
  | nil => exact ⟨0, fun _ ht => by cases ht⟩
  | cons t ts ih =>
      obtain ⟨b, hb⟩ := ih
      obtain ⟨c, hc⟩ : ∃ c, ∀ l rest, t.rest = .acquire l :: rest → rank l < c := by
        cases hrest : t.rest with
        | nil => exact ⟨0, fun _ _ h => by cases h⟩
        | cons op rest =>
            cases op with
            | acquire l =>
                refine ⟨rank l + 1, fun k more h => ?_⟩
                cases h
                exact Nat.lt_succ_self _
            | release l => exact ⟨0, fun _ _ h => by cases h⟩
      refine ⟨max b c, fun u hu l rest hrest => ?_⟩
      rcases List.mem_cons.mp hu with rfl | hu
      · exact Nat.lt_of_lt_of_le (hc l rest hrest) (Nat.le_max_right _ _)
      · exact Nat.lt_of_lt_of_le (hb u hu l rest hrest) (Nat.le_max_left _ _)

/-- **Progress.** Where every thread is ordered, and one is not done, some thread can go on. -/
theorem exists_step (hd : Disciplined rank ts) (h : ∃ t ∈ ts, t.rest ≠ []) : ∃ i us, step ts i = some us := by
  by_contra hno
  have hstuck : ∀ i, step ts i = none := by
    intro i
    cases hs : step ts i with
    | none => rfl
    | some us => exact (hno ⟨i, us, hs⟩).elim
  -- there would be threads that wait for locks of any rank
  have hrise : ∀ n, ∃ t ∈ ts, ∃ l rest, t.rest = .acquire l :: rest ∧ n ≤ rank l := by
    intro n
    induction n with
    | zero =>
        obtain ⟨t, ht, hrest⟩ := h
        obtain ⟨l, rest, heq, _⟩ := waits_of_stuck hstuck ht hrest
        exact ⟨t, ht, l, rest, heq, Nat.zero_le _⟩
    | succ n ih =>
        obtain ⟨t, ht, l, rest, heq, hn⟩ := ih
        have hrest : t.rest ≠ [] := by
          rw [heq]
          exact List.cons_ne_nil _ _
        obtain ⟨l', _, heq', u, hu, hheld⟩ := waits_of_stuck hstuck ht hrest
        rw [heq] at heq'
        cases heq'
        -- the holder is not done, as it has a lock to give back
        have hrest' : u.rest ≠ [] := by
          intro hnil
          have hord := hd u hu
          rw [hnil] at hord
          have hnone : u.held = [] := hord
          rw [hnone] at hheld
          cases hheld
        obtain ⟨k, more, hk, _⟩ := waits_of_stuck hstuck hu hrest'
        have hord := hd u hu
        rw [hk] at hord
        exact ⟨u, hu, k, more, hk, Nat.lt_of_le_of_lt hn (hord.1 l hheld)⟩
  -- but the threads are finitely many
  obtain ⟨b, hb⟩ := waited_bounded rank ts
  obtain ⟨t, ht, l, rest, heq, hle⟩ := hrise b
  exact Nat.not_lt_of_le hle (hb t ht l rest heq)

/-! ## Runs -/

/-- How many operations are still to be made. -/
def remaining (ts : List (Thread κ)) : Nat := Run.total (fun t => t.rest.length) ts

theorem remaining_step (hs : step ts i = some us) : remaining us + 1 = remaining ts := by
  obtain ⟨held, rest, l, ⟨ht, _, rfl⟩ | ⟨ht, rfl⟩⟩ := step_cases hs
  · have hset := Run.total_set (fun t : Thread κ => t.rest.length) ht ⟨l :: held, rest⟩
    simp only [List.length_cons] at hset
    unfold remaining
    omega
  · have hset := Run.total_set (fun t : Thread κ => t.rest.length) ht ⟨held.erase l, rest⟩
    simp only [List.length_cons] at hset
    unfold remaining
    omega

/-- A run makes one operation a step. -/
theorem run_length {is : List Nat} (hrun : Run.run step ts is = some us) :
    remaining us + is.length = remaining ts := by
  induction is generalizing ts with
  | nil =>
      cases hrun
      rfl
  | cons i is ih =>
      obtain ⟨vs, hs, hrun⟩ := Option.bind_eq_some_iff.mp hrun
      have hstep := remaining_step hs
      have hrest := ih hrun
      rw [List.length_cons]
      omega

/-- What a run keeps. -/
theorem run_keeps {is : List Nat} (hrun : Run.run step ts is = some us) (hd : Disciplined rank ts)
    (hx : Exclusive ts) : Disciplined rank us ∧ Exclusive us :=
  Run.run_invariant step (I := fun ts => Disciplined rank ts ∧ Exclusive ts) ⟨hd, hx⟩
    (fun _ _ _ h hs => ⟨h.1.step hs, h.2.step hs⟩) hrun

/-- Done: nothing is left to do, and no lock is held. -/
def Done (ts : List (Thread κ)) : Prop := ∀ t ∈ ts, t.rest = [] ∧ t.held = []

theorem done_iff (hd : Disciplined rank ts) : Done ts ↔ ∀ t ∈ ts, t.rest = [] := by
  refine ⟨fun h t ht => (h t ht).1, fun h t ht => ⟨h t ht, ?_⟩⟩
  have hord := hd t ht
  rw [h t ht] at hord
  exact hord

/-- A thread that is not done can be found where not all are. -/
theorem exists_rest (hd : Disciplined rank ts) (h : ¬ Done ts) : ∃ t ∈ ts, t.rest ≠ [] := by
  by_contra hnone
  refine h ((done_iff hd).mpr fun t ht => ?_)
  by_contra hne
  exact hnone ⟨t, ht, hne⟩

omit [DecidableEq κ] in
theorem remaining_of_done (h : Done ts) : remaining ts = 0 := by
  refine (Run.total_eq_zero_iff _).mpr fun t ht => ?_
  rw [(h t ht).1]
  rfl

/-- **Completion.** Ordered threads can all be brought to their end. -/
theorem completes (hd : Disciplined rank ts) : ∃ is us, Run.run step ts is = some us ∧ Done us := by
  obtain ⟨is, us, hrun, hdone, _⟩ := Run.finishes step (fun _ => true) remaining Done (I := Disciplined rank)
    (fun _ _ _ h hs => h.step hs)
    (fun _ _ _ _ _ hs => Nat.lt_of_lt_of_eq (Nat.lt_succ_self _) (remaining_step hs))
    (fun ts h hfinal => by
      obtain ⟨i, us, hs⟩ := exists_step h (exists_rest h hfinal)
      exact ⟨i, us, rfl, hs⟩) hd
  exact ⟨is, us, hrun, hdone⟩

end LockOrder
