import Mathlib.Data.List.Basic

/-!
# `Base.Segments` — reading an exact count out of a segmented stream

A TCP stream reaches the program as segments whose boundaries mean nothing. `gather n` is the composed
read of exactly `n` elements. Its two lemmas say that it cannot see the boundaries: it succeeds exactly
when `n` elements are there (`gather_eq_none_iff`), and then returns the first `n` of the concatenation
and leaves the others (`gather_spec`).
-/

namespace Segments

variable {α : Type}

/-- Take exactly `n` elements off the front of the segments, or fail without consuming anything. -/
def gather : Nat → List (List α) → Option (List α × List (List α))
  | 0,     segs => some ([], segs)
  | _ + 1, []   => none
  | n + 1, seg :: segs =>
      if n + 1 ≤ seg.length then some (seg.take (n + 1), seg.drop (n + 1) :: segs)
      else (gather (n + 1 - seg.length) segs).map (fun r => (seg ++ r.1, r.2))

theorem gather_cons_of_le {n : Nat} {seg : List α} {segs : List (List α)} (h : n + 1 ≤ seg.length) :
    gather (n + 1) (seg :: segs) = some (seg.take (n + 1), seg.drop (n + 1) :: segs) := by
  rw [gather, if_pos h]

theorem gather_cons_of_lt {n : Nat} {seg : List α} {segs : List (List α)} (h : seg.length < n + 1) :
    gather (n + 1) (seg :: segs)
      = (gather (n + 1 - seg.length) segs).map (fun r => (seg ++ r.1, r.2)) := by
  rw [gather, if_neg (Nat.not_le_of_lt h)]

/-- **A read waits** exactly when the stream has not delivered enough. -/
theorem gather_eq_none_iff (segs : List (List α)) :
    ∀ n, gather n segs = none ↔ segs.flatten.length < n := by
  induction segs with
  | nil =>
      intro n
      cases n with
      | zero => simp [gather]
      | succ n => simp [gather]
  | cons seg segs ih =>
      intro n
      cases n with
      | zero => simp [gather]
      | succ n =>
          rw [List.flatten_cons, List.length_append]
          by_cases h : n + 1 ≤ seg.length
          · rw [gather_cons_of_le h]
            simp only [reduceCtorEq, false_iff]
            omega
          · rw [gather_cons_of_lt (by omega), Option.map_eq_none_iff, ih]
            omega

/-- **A read completes** with the first `n` elements of the stream and leaves the rest in order. -/
theorem gather_spec {segs : List (List α)} :
    ∀ {n : Nat} {d : List α} {rest : List (List α)}, gather n segs = some (d, rest) →
      d = segs.flatten.take n ∧ rest.flatten = segs.flatten.drop n ∧ d.length = n := by
  induction segs with
  | nil =>
      intro n d rest h
      cases n with
      | zero => cases h; simp
      | succ n => cases h
  | cons seg segs ih =>
      intro n d rest h
      cases n with
      | zero => cases h; simp
      | succ n =>
          by_cases hle : n + 1 ≤ seg.length
          · rw [gather_cons_of_le hle] at h
            cases h
            rw [List.flatten_cons, List.flatten_cons, List.take_append_of_le_length hle,
              List.drop_append_of_le_length hle]
            exact ⟨rfl, rfl, List.length_take_of_le hle⟩
          · have hlt : seg.length < n + 1 := Nat.lt_of_not_le hle
            rw [gather_cons_of_lt hlt] at h
            obtain ⟨⟨d', rest'⟩, hr, heq⟩ := Option.map_eq_some_iff.mp h
            cases heq
            obtain ⟨hd, hrest, hlen⟩ := ih hr
            rw [List.flatten_cons, List.take_append, List.drop_append,
              List.take_of_length_le (Nat.le_of_lt hlt), List.drop_eq_nil_of_le (Nat.le_of_lt hlt),
              List.nil_append]
            refine ⟨by rw [← hd], hrest, ?_⟩
            rw [List.length_append, hlen]
            omega

/-- When enough has arrived the read completes. -/
theorem gather_of_le {segs : List (List α)} {n : Nat} (h : n ≤ segs.flatten.length) :
    ∃ rest, gather n segs = some (segs.flatten.take n, rest) ∧ rest.flatten = segs.flatten.drop n := by
  cases hg : gather n segs with
  | none => exact absurd ((gather_eq_none_iff segs n).mp hg) (Nat.not_lt_of_le h)
  | some r =>
      obtain ⟨d, rest⟩ := r
      obtain ⟨hd, hrest, _⟩ := gather_spec hg
      exact ⟨rest, by rw [← hd], hrest⟩

end Segments
