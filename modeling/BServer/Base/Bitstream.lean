import Mathlib.Algebra.Group.Nat.Defs
import Mathlib.Data.List.Induction

/-!
# `Base.Bitstream` — words of one width cut into words of another

Words are numbers, and a stream of them is the list of their bits, the most significant bit of a word first.
`spread w` writes words of `w` bits out, `whole w` cuts as many as there are, and drops the bits behind the last
one. `padded w` appends zeros first, until the last word is whole.

Cutting a stream of words of the width they were written in gives them back, whatever follows (`whole_spread`).
Writing out what was cut gives the stream back, if it ends with a whole word (`spread_whole`). Together they say
what becomes of words that are cut into padded words of another width and put together again (`whole_padded`):
the words are there, followed by zeros for what was padded.
-/

namespace Bitstream

/-! ## One word -/

/-- The number with these bits. -/
def ofBits (bs : List Bool) : Nat := bs.foldl (fun n b => 2 * n + b.toNat) 0

/-- The lowest `w` bits of a number. -/
def bits : Nat → Nat → List Bool
  | 0, _     => []
  | w + 1, n => bits w (n / 2) ++ [decide (n % 2 = 1)]

@[simp] theorem length_bits (w n : Nat) : (bits w n).length = w := by
  induction w generalizing n with
  | zero => rfl
  | succ w ih => rw [bits, List.length_append, ih, List.length_singleton]

theorem ofBits_concat (bs : List Bool) (b : Bool) : ofBits (bs ++ [b]) = 2 * ofBits bs + b.toNat := by
  rw [ofBits, List.foldl_append]
  rfl

theorem ofBits_bits {w n : Nat} (h : n < 2 ^ w) : ofBits (bits w n) = n := by
  induction w generalizing n with
  | zero =>
      have hn : n = 0 := Nat.lt_one_iff.mp h
      rw [hn]
      rfl
  | succ w ih =>
      have hhalf : n / 2 < 2 ^ w := by
        rw [Nat.pow_succ] at h
        omega
      have hbit : (decide (n % 2 = 1)).toNat = n % 2 := by
        rcases Nat.mod_two_eq_zero_or_one n with hbit | hbit
        · rw [hbit]; rfl
        · rw [hbit]; rfl
      rw [bits, ofBits_concat, ih hhalf, hbit, Nat.div_add_mod]

theorem bits_ofBits (bs : List Bool) : bits bs.length (ofBits bs) = bs := by
  induction bs using List.reverseRecOn with
  | nil => rfl
  | append_singleton bs b ih =>
      have hb : b.toNat ≤ 1 := Bool.toNat_le b
      have hhalf : (2 * ofBits bs + b.toNat) / 2 = ofBits bs := by omega
      have hbit : (2 * ofBits bs + b.toNat) % 2 = b.toNat := by omega
      rw [List.length_append, List.length_singleton, bits, ofBits_concat, hhalf, hbit, ih]
      cases b with
      | false => rfl
      | true => rfl

theorem ofBits_lt (bs : List Bool) : ofBits bs < 2 ^ bs.length := by
  induction bs using List.reverseRecOn with
  | nil => exact Nat.one_pos
  | append_singleton bs b ih =>
      have hb : b.toNat ≤ 1 := Bool.toNat_le b
      rw [ofBits_concat, List.length_append, List.length_singleton, Nat.pow_succ]
      omega

theorem ofBits_replicate (n : Nat) : ofBits (List.replicate n false) = 0 := by
  induction n with
  | zero => rfl
  | succ n ih => rw [List.replicate_succ', ofBits_concat, ih, Bool.toNat_false]

/-! ## Streams -/

/-- The bits of words of `w` bits. -/
def spread (w : Nat) (ns : List Nat) : List Bool := ns.flatMap (bits w)

/-- The first `k` words of `w` bits. -/
def cut (w : Nat) : Nat → List Bool → List Nat
  | 0, _      => []
  | k + 1, bs => ofBits (bs.take w) :: cut w k (bs.drop w)

/-- As many words of `w` bits as there are. -/
def whole (w : Nat) (bs : List Bool) : List Nat := cut w (bs.length / w) bs

/-- How many bits are missing from the last word. -/
def fill (w n : Nat) : Nat := (w - n % w) % w

/-- Words of `w` bits, the last one filled up with zeros. -/
def padded (w : Nat) (bs : List Bool) : List Nat := whole w (bs ++ List.replicate (fill w bs.length) false)

theorem length_spread (w : Nat) (ns : List Nat) : (spread w ns).length = ns.length * w := by
  induction ns with
  | nil => rw [List.length_nil, Nat.zero_mul]; rfl
  | cons n ns ih =>
      rw [spread, List.flatMap_cons, List.length_append, length_bits, List.length_cons, Nat.succ_mul,
        Nat.add_comm]
      exact congrArg (· + w) ih

theorem spread_append (w : Nat) (ns ms : List Nat) : spread w (ns ++ ms) = spread w ns ++ spread w ms :=
  List.flatMap_append

theorem bits_zero (w : Nat) : bits w 0 = List.replicate w false := by
  induction w with
  | zero => rfl
  | succ w ih => rw [bits, Nat.zero_div, ih, List.replicate_succ']; rfl

theorem spread_zeros (w k : Nat) : spread w (List.replicate k 0) = List.replicate (k * w) false := by
  induction k with
  | zero => rw [Nat.zero_mul]; rfl
  | succ k ih =>
      rw [List.replicate_succ, spread, List.flatMap_cons, bits_zero, Nat.succ_mul, Nat.add_comm,
        ← List.replicate_append_replicate]
      exact congrArg (List.replicate w false ++ ·) ih

theorem mod_fill {w : Nat} (hw : 0 < w) (n : Nat) : (n + fill w n) % w = 0 := by
  have hlt : n % w < w := Nat.mod_lt n hw
  rw [fill, Nat.add_mod, Nat.mod_mod]
  by_cases hzero : n % w = 0
  · rw [hzero, Nat.sub_zero, Nat.mod_self, Nat.add_zero, Nat.zero_mod]
  · rw [Nat.mod_eq_of_lt (Nat.sub_lt hw (Nat.pos_of_ne_zero hzero)), Nat.add_sub_cancel' (Nat.le_of_lt hlt),
      Nat.mod_self]

theorem lt_of_mem_whole {w : Nat} {bs : List Bool} {n : Nat} (h : n ∈ whole w bs) : n < 2 ^ w := by
  have hcut : ∀ k bs, n ∈ cut w k bs → n < 2 ^ w := by
    intro k
    induction k with
    | zero =>
        intro bs hn
        cases hn
    | succ k ih =>
        intro bs hn
        rcases List.mem_cons.mp hn with rfl | hn
        · refine Nat.lt_of_lt_of_le (ofBits_lt _) (Nat.pow_le_pow_right (by decide) ?_)
          exact List.length_take_le w bs
        · exact ih _ hn
  exact hcut _ _ h

section Width

variable {w : Nat} (hw : 0 < w)
include hw

theorem whole_append {b : List Bool} (hb : b.length = w) (bs : List Bool) :
    whole w (b ++ bs) = ofBits b :: whole w bs := by
  rw [whole, List.length_append, hb, Nat.add_div_left _ hw, cut, List.take_left' hb, List.drop_left' hb]
  rfl

/-- **Cutting undoes writing out.** -/
theorem whole_spread {ns : List Nat} (hns : ∀ n ∈ ns, n < 2 ^ w) (bs : List Bool) :
    whole w (spread w ns ++ bs) = ns ++ whole w bs := by
  induction ns with
  | nil => rfl
  | cons n ns ih =>
      obtain ⟨hn, hns⟩ := List.forall_mem_cons.mp hns
      have hcons : spread w (n :: ns) ++ bs = bits w n ++ (spread w ns ++ bs) := by
        rw [spread, List.flatMap_cons, List.append_assoc]
        rfl
      rw [hcons, whole_append hw (length_bits w n), ofBits_bits hn, ih hns, List.cons_append]

/-- **Writing out undoes cutting**, when no bits are left over. -/
theorem spread_whole {bs : List Bool} (h : bs.length % w = 0) : spread w (whole w bs) = bs := by
  obtain ⟨k, hk⟩ := Nat.dvd_of_mod_eq_zero h
  have hcount : bs.length / w = k := by rw [hk, Nat.mul_div_cancel_left k hw]
  rw [whole, hcount]
  clear h hcount
  induction k generalizing bs with
  | zero =>
      rw [Nat.mul_zero] at hk
      rw [List.length_eq_zero_iff.mp hk]
      rfl
  | succ k ih =>
      rw [Nat.mul_succ] at hk
      have htake : (bs.take w).length = w := by
        rw [List.length_take]
        omega
      have hdrop : (bs.drop w).length = w * k := by
        rw [List.length_drop]
        omega
      have hword := bits_ofBits (bs.take w)
      rw [htake] at hword
      rw [cut, spread, List.flatMap_cons, hword]
      show bs.take w ++ spread w (cut w k (bs.drop w)) = bs
      rw [ih hdrop, List.take_append_drop]

theorem whole_zeros (m : Nat) : whole w (List.replicate m false) = List.replicate (m / w) 0 := by
  induction m using Nat.strongRecOn with
  | ind m ih =>
      by_cases hlt : m < w
      · rw [whole, List.length_replicate, Nat.div_eq_of_lt hlt]
        rfl
      · obtain ⟨r, rfl⟩ := Nat.exists_eq_add_of_le (Nat.not_lt.mp hlt)
        have hlength : (List.replicate w false).length = w := List.length_replicate
        rw [← List.replicate_append_replicate, whole_append hw hlength, ofBits_replicate, ih r (by omega),
          Nat.add_div_left _ hw, List.replicate_succ]

/-- **Words through words of another width.** Cut into padded words of `w` bits and put together again with `m`
    more zeros, words of `v` bits come back, and zeros behind them. -/
theorem whole_padded {v : Nat} (hv : 0 < v) {ns : List Nat} (hns : ∀ n ∈ ns, n < 2 ^ v) (m : Nat) :
    whole v (spread w (padded w (spread v ns)) ++ List.replicate m false)
      = ns ++ List.replicate ((fill w (ns.length * v) + m) / v) 0 := by
  have hlength : (spread v ns ++ List.replicate (fill w (spread v ns).length) false).length % w = 0 := by
    rw [List.length_append, List.length_replicate, mod_fill hw]
  rw [padded, spread_whole hw hlength, List.append_assoc, List.replicate_append_replicate, whole_spread hv hns,
    whole_zeros hv, length_spread]

end Width

end Bitstream
