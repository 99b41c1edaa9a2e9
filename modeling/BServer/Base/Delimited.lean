import Mathlib.Data.List.Infix

/-!
# `Base.Delimited` — fields joined by delimiters, and when the fields can be read back

A text is put together from fields with a fixed delimiter between each two. Nothing keeps a delimiter out of a
field, so the text may be that of other fields as well. `determined_iff` says exactly when it is not: when no
field contains the delimiter before it or the one after it. Delimiters elsewhere do no harm: the text between
two of the true ones can only be cut at the delimiter that belongs there.

The delimiters are such that one cannot begin inside another copy of itself (`Unbordered`), which is easy to see
where the first letter does not occur again.
-/

namespace Delimited

variable {α : Type}

/-- A field, then each delimiter with the field behind it. -/
def join : List α → List (List α × List α) → List α
  | f, []             => f
  | f, (d, g) :: rest => f ++ (d ++ join g rest)

/-- No field contains a delimiter that it stands next to. -/
def Clean : List α → List (List α × List α) → Prop
  | _, []             => True
  | f, (d, g) :: rest => ¬ d <:+: f ∧ ¬ d <:+: g ∧ Clean g rest

/-- The first letter of a delimiter does not occur in it again. -/
def Unbordered (d : List α) : Prop := ∃ c ds, d = c :: ds ∧ c ∉ ds

theorem Unbordered.ne_nil {d : List α} (h : Unbordered d) : d ≠ [] := by
  obtain ⟨c, ds, rfl, _⟩ := h
  exact List.cons_ne_nil c ds

theorem join_append (a g : List α) (rest : List (List α × List α)) :
    join (a ++ g) rest = a ++ join g rest := by
  cases rest with
  | nil => rfl
  | cons e rest => exact List.append_assoc a g _

/-- A delimiter that is found further on in a text that begins with it begins behind the first one. -/
theorem Unbordered.shifted {d z j k : List α} (hd : Unbordered d) (h : d ++ j = z ++ (d ++ k)) :
    (z = [] ∧ j = k) ∨ ∃ x, z = d ++ x ∧ j = x ++ (d ++ k) := by
  cases z with
  | nil => exact Or.inl ⟨rfl, List.append_cancel_left h⟩
  | cons b z =>
      rcases List.append_eq_append_iff.mp h with ⟨x, hz, hj⟩ | ⟨y, hdy, hk⟩
      · exact Or.inr ⟨x, hz, hj⟩
      · -- what is left of the first one would have to begin the second
        obtain ⟨c, ds, rfl, hc⟩ := hd
        cases y with
        | nil =>
            refine Or.inr ⟨[], ?_, ?_⟩
            · rw [hdy, List.append_nil, List.append_nil]
            · exact hk.symm
        | cons y ys =>
            have hcy : c = y := (List.cons.inj hk).1
            have hds : ds = z ++ y :: ys := (List.cons.inj hdy).2
            apply absurd _ hc
            rw [hds, hcy]
            exact List.mem_append_right z List.mem_cons_self

section Determined

variable {f f' : List α} {rest rest' : List (List α × List α)}

/-- **Clean fields are determined.** -/
theorem Clean.determined (hclean : Clean f rest) (hub : ∀ e ∈ rest, Unbordered e.1)
    (hdelims : rest'.map Prod.fst = rest.map Prod.fst) (h : join f' rest' = join f rest) :
    f' = f ∧ rest' = rest := by
  induction rest generalizing f f' rest' with
  | nil =>
      obtain rfl := List.map_eq_nil_iff.mp hdelims
      exact ⟨h, rfl⟩
  | cons e rest ih =>
      obtain ⟨d, g⟩ := e
      obtain ⟨hf, hg, hrest⟩ := hclean
      have hd : Unbordered d := hub (d, g) List.mem_cons_self
      have hubs : ∀ e ∈ rest, Unbordered e.1 := fun e he => hub e (List.mem_cons_of_mem _ he)
      obtain ⟨⟨d', g'⟩, rest', rfl, rfl, hmap⟩ := List.map_eq_cons_iff.mp hdelims
      show _ ∧ (d', g') :: rest' = (d', g) :: rest
      rcases List.append_eq_append_iff.mp h with ⟨z, hz, hj⟩ | ⟨z, hz, hj⟩
      · -- the other field is no longer
        rcases hd.shifted hj with ⟨rfl, hjoin⟩ | ⟨x, rfl, _⟩
        · obtain ⟨rfl, rfl⟩ := ih hrest hubs hmap hjoin
          exact ⟨by rw [hz, List.append_nil], rfl⟩
        · exact absurd ⟨f', x, by rw [hz, List.append_assoc]⟩ hf
      · -- or longer: then it runs over the delimiter, into the next field
        rcases hd.shifted hj with ⟨rfl, hjoin⟩ | ⟨x, rfl, hjoin⟩
        · obtain ⟨rfl, rfl⟩ := ih hrest hubs hmap hjoin.symm
          exact ⟨by rw [hz, List.append_nil], rfl⟩
        · have hjoin' : join (x ++ d' ++ g') rest' = join g rest := by
            rw [join_append, hjoin, List.append_assoc]
          obtain ⟨hfield, _⟩ := ih hrest hubs hmap hjoin'
          exact absurd ⟨x, g', hfield⟩ hg

/-- **Determined fields are clean.** A field that contains a delimiter next to it can be cut there. -/
theorem clean_of_determined (hne : ∀ e ∈ rest, e.1 ≠ [])
    (h : ∀ f' rest', rest'.map Prod.fst = rest.map Prod.fst → join f' rest' = join f rest →
      f' = f ∧ rest' = rest) : Clean f rest := by
  induction rest generalizing f with
  | nil => trivial
  | cons e rest ih =>
      obtain ⟨d, g⟩ := e
      have hd : d ≠ [] := hne (d, g) List.mem_cons_self
      refine ⟨?_, ?_, ?_⟩
      · rintro ⟨a, b, rfl⟩
        have hcut : join a ((d, b ++ d ++ g) :: rest) = join (a ++ d ++ b) ((d, g) :: rest) := by
          simp only [join, join_append, List.append_assoc]
        have hshort := congrArg List.length (h a ((d, b ++ d ++ g) :: rest) rfl hcut).1
        simp only [List.length_append] at hshort
        exact hd (List.length_eq_zero_iff.mp (by omega))
      · rintro ⟨a, b, rfl⟩
        have hcut : join (f ++ d ++ a) ((d, b) :: rest) = join f ((d, a ++ d ++ b) :: rest) := by
          simp only [join, join_append, List.append_assoc]
        have hlong := congrArg List.length (h (f ++ d ++ a) ((d, b) :: rest) rfl hcut).1
        simp only [List.length_append] at hlong
        exact hd (List.length_eq_zero_iff.mp (by omega))
      · apply ih (fun e he => hne e (List.mem_cons_of_mem _ he))
        intro g' rest' hdelims hjoin
        have hsame : join f ((d, g') :: rest') = join f ((d, g) :: rest) := by
          simp only [join, hjoin]
        obtain ⟨_, hrest⟩ := h f ((d, g') :: rest') (congrArg (d :: ·) hdelims) hsame
        obtain ⟨hpair, hrest⟩ := List.cons.inj hrest
        exact ⟨(Prod.mk.inj hpair).2, hrest⟩

/-- **What a joined text says.** It is the text of no other fields exactly if its fields are clean. -/
theorem determined_iff (hub : ∀ e ∈ rest, Unbordered e.1) :
    (∀ f' rest', rest'.map Prod.fst = rest.map Prod.fst → join f' rest' = join f rest →
      f' = f ∧ rest' = rest) ↔ Clean f rest := by
  constructor
  · exact clean_of_determined (fun e he => (hub e he).ne_nil)
  · intro hclean f' rest' hdelims hjoin
    exact hclean.determined hub hdelims hjoin

end Determined

end Delimited
