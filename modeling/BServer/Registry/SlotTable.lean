import BServer.Registry.PeerHandleMap

/-!
# `Registry.SlotTable` — what the client registry is for, and that it is that

The abstract registry is a partial function from slot ids to the server and session bound there
(`SlotTable`). The code keeps the same information twice, in `map_` and in the per-server lists of
`client_list_`, and updates the two separately. `Agrees` says that the two containers describe one table;
each operation of the reconnect path preserves it (`Agrees.fixSet`, `Agrees.erase`, …), and so does every run
of them from the empty registry (`agrees_run`).

What makes the lists agree is that `slotId s i` determines `s` (`slotId_inj`): a slot id can only ever be
listed under one server, so rewriting the list of `s` cannot leave a stale entry in the list of `t`.
-/

namespace BServer

open Bytes

/-- The sessions bound, by slot id, each with the server it was bound under. -/
abbrev SlotTable := Bytes → Option (Bytes × SessPtr)

namespace SlotTable

def empty : SlotTable := fun _ => none

def bind (t : SlotTable) (k s : Bytes) (p : SessPtr) : SlotTable :=
  fun k' => if k' = k then some (s, p) else t k'

def unbind (t : SlotTable) (k : Bytes) : SlotTable := fun k' => if k' = k then none else t k'

/-- Every bound slot is a slot of the server it is bound under. -/
def WellNamed (t : SlotTable) : Prop := ∀ k s p, t k = some (s, p) → ∃ i, k = slotId s i

theorem WellNamed.bind {t : SlotTable} (h : t.WellNamed) (s : Bytes) (i : Nat) (p : SessPtr) :
    (t.bind (slotId s i) s p).WellNamed := by
  intro k s' p' hk
  unfold SlotTable.bind at hk
  split at hk
  · next he => cases hk; exact ⟨i, he⟩
  · exact h k s' p' hk

theorem WellNamed.unbind {t : SlotTable} (h : t.WellNamed) (k : Bytes) : (t.unbind k).WellNamed := by
  intro k' s p hk
  unfold SlotTable.unbind at hk
  split at hk
  · cases hk
  · exact h k' s p hk

/-- Rebinding or unbinding a slot of `s` leaves what is bound under another server alone. -/
theorem WellNamed.ne_of_other {t : SlotTable} (h : t.WellNamed) {s s' k : Bytes} {i : Nat} {p : SessPtr}
    (hk : t k = some (s', p)) (hs : s' ≠ s) : k ≠ slotId s i := by
  intro he
  obtain ⟨j, hj⟩ := h k s' p hk
  exact hs (slotId_inj (hj.symm.trans he)).1

end SlotTable

/-- A list from which an entry is dropped before it is listed again keeps its entries distinct. -/
theorem nodup_relisted {listed : Bytes → List Bytes} (h : ∀ t, (listed t).Nodup) (s k t : Bytes) :
    (if t = s then (listed s).erase k ++ [k] else listed t).Nodup := by
  split
  · rw [List.nodup_append]
    refine ⟨(h s).erase _, List.nodup_singleton _, ?_⟩
    intro a ha b hb hab
    rw [List.mem_singleton] at hb
    rw [hab, hb] at ha
    exact (h s).not_mem_erase ha
  · exact h t

theorem nodup_fixSet {m : PeerHandleMapForClient} (h : ∀ t, (m.listed t).Nodup) {s : Bytes} (hs : s ≠ [])
    (i : Nat) (p : SessPtr) (t : Bytes) : ((m.fixSet s (slotId s i) (some p)).2.listed t).Nodup := by
  rw [PeerHandleMapForClient.listed_fixSet hs (slotId_ne_nil s i)]
  exact nodup_relisted h s (slotId s i) t

/-- **The representation.** `map_` holds exactly the bindings of the table, none of them null, and
    `client_list_[s]` lists exactly the slots bound under `s`, each once. -/
structure Agrees (m : PeerHandleMapForClient) (t : SlotTable) : Prop where
  named  : t.WellNamed
  bound  : ∀ k q, m.map.find k = some q ↔ ∃ s p, t k = some (s, p) ∧ q = some p
  listed : ∀ s k, k ∈ m.listed s ↔ ∃ p, t k = some (s, p)
  nodup  : ∀ s, (m.listed s).Nodup

namespace Agrees

variable {m : PeerHandleMapForClient} {t : SlotTable}

theorem empty : Agrees .empty SlotTable.empty where
  named := fun _ _ _ h => by cases h
  bound := fun k q => by simp [PeerHandleMapForClient.empty, SlotTable.empty]
  listed := fun s k => by simp [SlotTable.empty]
  nodup := fun s => by simp

/-- The empty id is no slot. -/
theorem unbound_nil (h : Agrees m t) : t [] = none := by
  cases ht : t [] with
  | none => rfl
  | some b =>
      obtain ⟨i, hi⟩ := h.named [] b.1 b.2 ht
      exact absurd hi.symm (slotId_ne_nil _ _)

/-! ### One lemma per operation of the reconnect path -/

theorem fixSet (h : Agrees m t) {s : Bytes} (hs : s ≠ []) (i : Nat) (p : SessPtr) :
    Agrees (m.fixSet s (slotId s i) (some p)).2 (t.bind (slotId s i) s p) where
  named := h.named.bind s i p
  bound := by
    intro k q
    rw [PeerHandleMapForClient.find_fixSet hs (slotId_ne_nil s i), SlotTable.bind]
    by_cases hk : k = slotId s i
    · rw [if_pos hk, if_pos hk]
      constructor
      · intro hq; exact ⟨s, p, rfl, (Option.some.inj hq).symm⟩
      · rintro ⟨s', p', he, hq⟩; cases he; rw [hq]
    · rw [if_neg hk, if_neg hk]; exact h.bound k q
  listed := by
    intro s' k
    rw [PeerHandleMapForClient.listed_fixSet hs (slotId_ne_nil s i), SlotTable.bind]
    by_cases hs' : s' = s
    · subst hs'
      -- the old entry is dropped before the new one is appended
      rw [if_pos rfl, List.mem_append, List.mem_singleton, (h.nodup s').mem_erase_iff, h.listed]
      by_cases hk : k = slotId s' i
      · simp [hk]
      · simp [hk]
    · rw [if_neg hs', h.listed]
      by_cases hk : k = slotId s i
      · -- slot `i` of `s` is neither listed nor bound under any other server
        rw [if_pos hk]
        constructor
        · rintro ⟨p', hp'⟩; exact absurd hk (h.named.ne_of_other hp' hs')
        · rintro ⟨p', hp'⟩; cases hp'; exact absurd rfl hs'
      · rw [if_neg hk]
  nodup := nodup_fixSet h.nodup hs i p

theorem fixSet_refused (h : Agrees m t) (id : Bytes) (p : SessPtr) :
    Agrees (m.fixSet [] id (some p)).2 t := by
  rw [PeerHandleMapForClient.fixSet_refused (Or.inl rfl)]
  exact h

/-- Erasing a key that no other server has listed. -/
theorem eraseKey (h : Agrees m t) {s k : Bytes} (hother : ∀ s' p, s' ≠ s → t k ≠ some (s', p)) :
    Agrees (m.erase s k) (t.unbind k) where
  named := h.named.unbind k
  bound := by
    intro k' q
    rw [PeerHandleMapForClient.find_erase, SlotTable.unbind]
    by_cases hk : k' = k
    · simp [hk]
    · rw [if_neg hk, if_neg hk]; exact h.bound k' q
  listed := by
    intro s' k'
    rw [PeerHandleMapForClient.listed_erase, SlotTable.unbind]
    by_cases hs' : s' = s
    · subst hs'
      rw [if_pos rfl, (h.nodup s').mem_erase_iff, h.listed]
      by_cases hk : k' = k
      · simp [hk]
      · simp [hk]
    · rw [if_neg hs', h.listed]
      by_cases hk : k' = k
      · -- the key is bound under no other server, so no other list mentions it
        subst hk
        rw [if_pos rfl]
        exact ⟨fun ⟨p, hp⟩ => absurd hp (hother s' p hs'), fun ⟨p, hp⟩ => by cases hp⟩
      · rw [if_neg hk]
  nodup := by
    intro s'
    rw [PeerHandleMapForClient.listed_erase]
    split
    · exact (h.nodup s).erase _
    · exact h.nodup s'

theorem erase (h : Agrees m t) (s : Bytes) (i : Nat) :
    Agrees (m.erase s (slotId s i)) (t.unbind (slotId s i)) :=
  h.eraseKey (fun _ _ hs hk => h.named.ne_of_other hk hs rfl)

/-- `erase(s, "")`, which a session that never got an id runs on close, changes nothing. -/
theorem erase_nil (h : Agrees m t) (s : Bytes) : Agrees (m.erase s []) t := by
  -- no slot id is empty, so there is nothing to unbind
  have hu : t.unbind [] = t := by
    funext k
    unfold SlotTable.unbind
    split
    · next hk => rw [hk, h.unbound_nil]
    · rfl
  have := h.eraseKey (s := s) (k := []) (fun s' p _ hk => by rw [h.unbound_nil] at hk; cases hk)
  rwa [hu] at this

theorem get (h : Agrees m t) (s : Bytes) (rand : Nat) : Agrees (m.get s rand).2 t where
  named := h.named
  bound := by
    intro k q
    rw [PeerHandleMapForClient.map_get]
    exact h.bound k q
  listed := by
    intro s' k
    rw [PeerHandleMapForClient.listed_get]
    exact h.listed s' k
  nodup := by
    intro s'
    rw [PeerHandleMapForClient.listed_get]
    exact h.nodup s'

/-! ### Lookups against the table -/

theorem fixGet_eq (h : Agrees m t) {k s : Bytes} {p : SessPtr} (hk : t k = some (s, p)) :
    m.fixGet k = some p :=
  PeerHandleMapForClient.fixGet_eq_some.mpr ((h.bound k (some p)).mpr ⟨s, p, hk, rfl⟩)

/-- `get` returns a session bound under the server, whatever `rand()` says, or finds none bound. -/
theorem get_spec (h : Agrees m t) (s : Bytes) (rand : Nat) :
    (∃ k p, t k = some (s, p) ∧ (m.get s rand).1 = some p) ∨
    ((∀ k p, t k ≠ some (s, p)) ∧ (m.get s rand).1 = none) := by
  by_cases hl : m.listed s = []
  · refine Or.inr ⟨fun k p hk => ?_, PeerHandleMapForClient.get_of_nil hl rand⟩
    have hmem : k ∈ m.listed s := (h.listed s k).mpr ⟨p, hk⟩
    rw [hl] at hmem
    cases hmem
  · obtain ⟨k, hk, hget⟩ := PeerHandleMapForClient.get_of_ne_nil hl rand
    obtain ⟨p, hp⟩ := (h.listed s k).mp hk
    exact Or.inl ⟨k, p, hp, by rw [hget, h.fixGet_eq hp]⟩

end Agrees

/-! ## Without the table

Which server a slot is bound under can be read off its id, so the agreement of the two containers can be said
without the table, and then null entries do no harm either. -/

/-- `client_list_[s]` lists exactly the slots of `s` that hold a session, each once. -/
structure Consistent (m : PeerHandleMapForClient) : Prop where
  listed : ∀ s k, k ∈ m.listed s ↔ (∃ i, k = slotId s i) ∧ m.fixGet k ≠ none
  nodup  : ∀ s, (m.listed s).Nodup

/-- Two containers that describe one table are consistent. -/
theorem Agrees.consistent {m : PeerHandleMapForClient} {t : SlotTable} (h : Agrees m t) : Consistent m where
  nodup := h.nodup
  listed := by
    intro s k
    rw [h.listed]
    constructor
    · rintro ⟨p, hp⟩
      refine ⟨h.named k s p hp, ?_⟩
      rw [h.fixGet_eq hp]
      exact Option.some_ne_none p
    · rintro ⟨⟨i, rfl⟩, hne⟩
      obtain ⟨x, hx⟩ := Option.ne_none_iff_exists'.mp hne
      obtain ⟨s', p, hp, _⟩ := (h.bound _ _).mp (PeerHandleMapForClient.fixGet_eq_some.mp hx)
      -- the slot can only be bound under the server it is named after
      obtain ⟨j, hj⟩ := h.named _ s' p hp
      obtain ⟨rfl, _⟩ := slotId_inj hj
      exact ⟨p, hp⟩

/-- Binding one slot and listing it last keeps the containers consistent, wherever it was listed before. -/
theorem Consistent.rebind {m m' : PeerHandleMapForClient} (h : Consistent m) {s : Bytes} {i : Nat} {p : SessPtr}
    (hget : ∀ k, m'.fixGet k = if k = slotId s i then some p else m.fixGet k)
    (hlisted : ∀ t, m'.listed t
      = if t = s then (m.listed s).erase (slotId s i) ++ [slotId s i] else m.listed t) :
    Consistent m' where
  listed := by
    intro t k
    rw [hlisted, hget]
    by_cases ht : t = s
    · subst ht
      rw [if_pos rfl, List.mem_append, List.mem_singleton, (h.nodup t).mem_erase_iff, h.listed]
      by_cases hk : k = slotId t i
      · simp [hk]
      · simp [hk]
    · rw [if_neg ht, h.listed]
      by_cases hk : k = slotId s i
      · -- no other server has a slot of this name
        subst hk
        have hno : ¬ ∃ j, slotId s i = slotId t j := fun ⟨_, hj⟩ => ht (slotId_inj hj).1.symm
        exact ⟨fun hl => absurd hl.1 hno, fun hl => absurd hl.1 hno⟩
      · rw [if_neg hk]
  nodup := by
    intro t
    rw [hlisted]
    exact nodup_relisted h.nodup s (slotId s i) t

theorem Consistent.fixSet {m : PeerHandleMapForClient} (h : Consistent m) {s : Bytes} (hs : s ≠ []) (i : Nat)
    (p : SessPtr) : Consistent (m.fixSet s (slotId s i) (some p)).2 :=
  h.rebind (PeerHandleMapForClient.fixGet_fixSet hs (slotId_ne_nil s i))
    (PeerHandleMapForClient.listed_fixSet hs (slotId_ne_nil s i))

/-- Binding a free slot and listing that very slot keeps the containers consistent. -/
theorem Consistent.pushed {m : PeerHandleMapForClient} (h : Consistent m) {s : Bytes} {i : Nat} (p : SessPtr)
    (hfree : m.fixGet (slotId s i) = none) :
    Consistent ⟨m.map.assign (slotId s i) (some p),
      PeerHandleMapForClient.pushBack m.clientList s (slotId s i)⟩ := by
  -- a free slot is not listed, so there is no old entry to drop
  have habsent : slotId s i ∉ m.listed s := fun hmem => ((h.listed s _).mp hmem).2 hfree
  refine h.rebind (s := s) (i := i) (p := p) (fun k => ?_) (fun t => ?_)
  · rw [PeerHandleMapForClient.fixGet_eq_valueAt, PeerHandleMapForClient.fixGet_eq_valueAt]
    exact StdMap.valueAt_assign _ _ _ _
  · rw [List.erase_of_not_mem habsent, PeerHandleMapForClient.listed_pushBack]

/-- Unbinding a slot and unlisting it keeps the containers consistent. -/
theorem Consistent.erase {m : PeerHandleMapForClient} (h : Consistent m) (s : Bytes) (i : Nat) :
    Consistent (m.erase s (slotId s i)) where
  listed := by
    intro t k
    rw [PeerHandleMapForClient.listed_erase, PeerHandleMapForClient.fixGet_erase]
    by_cases ht : t = s
    · subst ht
      rw [if_pos rfl, (h.nodup t).mem_erase_iff, h.listed]
      by_cases hk : k = slotId t i
      · simp [hk]
      · simp [hk]
    · rw [if_neg ht, h.listed]
      by_cases hk : k = slotId s i
      · subst hk
        have hno : ¬ ∃ j, slotId s i = slotId t j := fun ⟨_, hj⟩ => ht (slotId_inj hj).1.symm
        exact ⟨fun hl => absurd hl.1 hno, fun hl => absurd hl.1 hno⟩
      · rw [if_neg hk]
  nodup := by
    intro t
    rw [PeerHandleMapForClient.listed_erase]
    split
    · exact (h.nodup s).erase _
    · exact h.nodup t

/-! ## Runs of the reconnect path -/

/-- A registry call as the reconnect path makes it: slots are named `s:i`, and a session that never got an
    id erases the empty one (through either overload of `erase`). -/
inductive ReconnectCall where
  | fixSet (s : Bytes) (i : Nat) (p : SessPtr)
  | erase (s : Bytes) (i : Nat)
  | eraseEmptyId (s : Bytes)
  | eraseEmpty
  | fixGet (id : Bytes)
  | get (s : Bytes) (rand : Nat)

namespace ReconnectCall

/-- The registry after the call. -/
def apply (m : PeerHandleMapForClient) : ReconnectCall → PeerHandleMapForClient
  | fixSet s i p    => (m.fixSet s (slotId s i) (some p)).2
  | erase s i       => m.erase s (slotId s i)
  | eraseEmptyId s  => m.erase s []
  | eraseEmpty      => m.eraseById []
  | fixGet _        => m
  | get s rand      => (m.get s rand).2

/-- The call on the abstract table; `fix_set` refuses the empty server id. -/
def spec (t : SlotTable) : ReconnectCall → SlotTable
  | fixSet s i p => if s = [] then t else t.bind (slotId s i) s p
  | erase s i    => t.unbind (slotId s i)
  | _            => t

theorem agrees_apply {m : PeerHandleMapForClient} {t : SlotTable} (h : Agrees m t) (c : ReconnectCall) :
    Agrees (c.apply m) (c.spec t) := by
  cases c with
  | fixSet s i p =>
      by_cases hs : s = []
      · subst hs
        exact h.fixSet_refused (slotId [] i) p
      · simp only [apply, spec, if_neg hs]
        exact h.fixSet hs i p
  | erase s i => exact h.erase s i
  | eraseEmptyId s => exact h.erase_nil s
  | eraseEmpty => exact h
  | fixGet id => exact h
  | get s rand => exact h.get s rand

/-- The registry after a run of calls from the empty one. -/
def runFrom (m : PeerHandleMapForClient) (cs : List ReconnectCall) : PeerHandleMapForClient :=
  cs.foldl apply m

/-- The table after the same calls. -/
def tableFrom (t : SlotTable) (cs : List ReconnectCall) : SlotTable := cs.foldl spec t

/-- **Refinement over runs.** Step by step the code's two containers describe the abstract table. -/
theorem agrees_run {m : PeerHandleMapForClient} {t : SlotTable} (h : Agrees m t) (cs : List ReconnectCall) :
    Agrees (runFrom m cs) (tableFrom t cs) := by
  induction cs generalizing m t with
  | nil => exact h
  | cons c cs ih => exact ih (agrees_apply h c)

/-- **The two indexes agree after every run of the reconnect path.** `client_list_[s]` has no duplicates
    and lists exactly the keys of `map_` bound under `s`; every key of `map_` is bound to a session; and
    `get(s)` draws an index in range and returns a session currently bound under `s`, or null when there
    is none. -/
theorem reconnect_indexes_agree (cs : List ReconnectCall) :
    let m := runFrom .empty cs
    let t := tableFrom .empty cs
    (∀ k q, m.map.find k = some q ↔ ∃ s p, t k = some (s, p) ∧ q = some p) ∧
    (∀ s, (m.listed s).Nodup ∧
      (∀ k, k ∈ m.listed s ↔ ∃ p, t k = some (s, p)) ∧
      (∀ k ∈ m.listed s, ∃ p, m.map.find k = some (some p)) ∧
      ∀ rand, (m.listed s ≠ [] → randomNum (m.listed s).length rand < (m.listed s).length) ∧
        ((∃ k p, t k = some (s, p) ∧ (m.get s rand).1 = some p) ∨
         ((∀ k p, t k ≠ some (s, p)) ∧ (m.get s rand).1 = none))) := by
  intro m t
  have h : Agrees m t := agrees_run Agrees.empty cs
  refine ⟨h.bound, fun s => ⟨h.nodup s, h.listed s, ?_, ?_⟩⟩
  · intro k hk
    obtain ⟨p, hp⟩ := (h.listed s k).mp hk
    exact ⟨p, (h.bound k (some p)).mpr ⟨s, p, hp, rfl⟩⟩
  · intro rand
    refine ⟨fun hne => ?_, h.get_spec s rand⟩
    exact PeerHandleMapForClient.randomNum_lt (List.length_pos_iff.mpr hne) rand

end ReconnectCall

end BServer
