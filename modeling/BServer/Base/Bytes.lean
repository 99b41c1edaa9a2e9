import Mathlib.Algebra.Group.Nat.Defs
import Mathlib.Data.List.Basic

/-!
# `Base.Bytes` — byte strings, big-endian words, decimal numerals

The vocabulary every C++ buffer is modelled in: a `std::string` or `std::vector<char>` is a list of
bytes. Nothing here knows what the bytes mean.

* **Words.** `be32`/`ofBe32` are `htonl`/`ntohl` seen through memory, with the round trip
  `ofBe32_be32_append`.
* **Buffers.** `overwrite` is a write through `data()`: it never changes the size of the vector.
* **Numerals.** `decimal` is what `operator<<` prints for a number. No numeral contains a separator that
  is not a digit, so `base ++ [sep] ++ numeral` determines both parts (`append_sep_decimal_inj`).
-/

/-- A C++ byte sequence: `std::string`, `std::vector<char>`. -/
abbrev Bytes := List UInt8

namespace Bytes

/-- A literal of the source, as the bytes the compiler stores. -/
def ascii (s : String) : Bytes := s.toList.map (fun c => UInt8.ofNat c.toNat)

/-- A string as a C function reads its `c_str()`: up to the first zero. -/
def cString (s : Bytes) : Bytes := s.takeWhile (fun b => b ≠ 0)

/-! ## Big-endian 32-bit words -/

/-- The four bytes of a word in network order (`htonl`, then a copy out of memory). -/
def be32 (w : BitVec 32) : Bytes :=
  [UInt8.ofNat (w.toNat / 2 ^ 24), UInt8.ofNat (w.toNat / 2 ^ 16),
   UInt8.ofNat (w.toNat / 2 ^ 8), UInt8.ofNat w.toNat]

/-- The word in the first four bytes (`ntohl(*(int32*)p)`); too short a buffer reads as `0`. -/
def ofBe32 : Bytes → BitVec 32
  | a :: b :: c :: d :: _ =>
      BitVec.ofNat 32 (a.toNat * 2 ^ 24 + b.toNat * 2 ^ 16 + c.toNat * 2 ^ 8 + d.toNat)
  | _ => 0

@[simp] theorem be32_length (w : BitVec 32) : (be32 w).length = 4 := rfl

/-- **Word round trip.** Reading the bytes of a word back gives the word, whatever follows. -/
@[simp] theorem ofBe32_be32_append (w : BitVec 32) (rest : Bytes) : ofBe32 (be32 w ++ rest) = w := by
  have hw : w.toNat < 2 ^ 32 := w.isLt
  simp only [be32, List.cons_append, List.nil_append, ofBe32, UInt8.toNat_ofNat']
  apply BitVec.eq_of_toNat_eq
  rw [BitVec.toNat_ofNat]
  omega

/-- Only the first four bytes are read. -/
theorem ofBe32_take (bs : Bytes) (n : Nat) : ofBe32 (bs.take (n + 4)) = ofBe32 bs := by
  match bs with
  | [] => rfl
  | [_] => rfl
  | [_, _] => rfl
  | [_, _, _] => rfl
  | _ :: _ :: _ :: _ :: _ => rfl

/-! ## `std::vector` resizing and writes through a buffer pointer -/

/-- `v.resize(n)`: cut off the tail, or pad with zero bytes. -/
def resize (v : Bytes) (n : Nat) : Bytes := v.take n ++ List.replicate (n - v.length) 0

@[simp] theorem resize_length (v : Bytes) (n : Nat) : (resize v n).length = n := by
  simp only [resize, List.length_append, List.length_take, List.length_replicate]
  omega

/-- `v` after the bytes `d` were stored at `v.data()`. The size of `v` does not change. -/
def overwrite (v d : Bytes) : Bytes := (d ++ v.drop d.length).take v.length

@[simp] theorem overwrite_length (v d : Bytes) : (overwrite v d).length = v.length := by
  simp only [overwrite, List.length_take, List.length_append, List.length_drop]
  omega

/-- A write that fits is read back in front, and the rest of the buffer keeps its stale bytes. -/
theorem overwrite_of_le {v d : Bytes} (h : d.length ≤ v.length) :
    overwrite v d = d ++ v.drop d.length := by
  apply List.take_of_length_le
  simp only [List.length_append, List.length_drop]
  omega

theorem take_overwrite {v d : Bytes} (h : d.length ≤ v.length) :
    (overwrite v d).take d.length = d := by
  rw [overwrite_of_le h, List.take_left]

/-- A write of exactly the size of the buffer replaces its content. -/
theorem overwrite_eq {v d : Bytes} (h : d.length = v.length) : overwrite v d = d := by
  rw [overwrite_of_le (Nat.le_of_eq h), List.drop_eq_nil_of_le (Nat.le_of_eq h.symm), List.append_nil]

/-! ## Decimal numerals -/

/-- The numeral `operator<<` prints for `n`. -/
def decimal (n : Nat) : Bytes := (Nat.toDigits 10 n).map (fun c => UInt8.ofNat c.toNat)

/-- The bytes `'0'` to `'9'`. -/
abbrev IsDigit (b : UInt8) : Prop := 48 ≤ b.toNat ∧ b.toNat ≤ 57

/-- The byte of a digit character is a digit, and the character can be read back from it. -/
private theorem digit_of_byte {c : Char} (h : c.isDigit = true) :
    Char.ofNat (UInt8.ofNat c.toNat).toNat = c ∧ IsDigit (UInt8.ofNat c.toNat) := by
  have hc : 48 ≤ c.toNat ∧ c.toNat ≤ 57 := by
    simpa [Char.isDigit, UInt32.le_iff_toNat_le] using h
  have hb : (UInt8.ofNat c.toNat).toNat = c.toNat := by
    rw [UInt8.toNat_ofNat']
    omega
  rw [IsDigit, hb]
  exact ⟨Char.ofNat_toNat c, hc⟩

/-- The number a numeral stands for. -/
def ofDecimal (s : Bytes) : Nat := Nat.ofDigitChars 10 (s.map (fun b => Char.ofNat b.toNat)) 0

/-- **Numeral round trip.** -/
@[simp] theorem ofDecimal_decimal (n : Nat) : ofDecimal (decimal n) = n := by
  have hchars : (decimal n).map (fun b => Char.ofNat b.toNat) = Nat.toDigits 10 n := by
    rw [decimal, List.map_map]
    refine (List.map_congr_left ?_).trans (List.map_id _)
    intro c hc
    exact (digit_of_byte (Nat.isDigit_of_mem_toDigits (by decide) (by decide) hc)).1
  rw [ofDecimal, hchars, Nat.ofDigitChars_ten_toDigits]

theorem decimal_injective {m n : Nat} (h : decimal m = decimal n) : m = n := by
  rw [← ofDecimal_decimal m, h, ofDecimal_decimal]

theorem isDigit_of_mem_decimal {b : UInt8} {n : Nat} (h : b ∈ decimal n) : IsDigit b := by
  obtain ⟨c, hc, rfl⟩ := List.mem_map.mp h
  exact (digit_of_byte (Nat.isDigit_of_mem_toDigits (by decide) (by decide) hc)).2

/-- Every byte of a numeral is a digit, so no other separator occurs in it. -/
theorem not_mem_decimal {b : UInt8} (n : Nat) (hb : ¬ IsDigit b) : b ∉ decimal n :=
  fun hm => hb (isDigit_of_mem_decimal hm)

/-- A numeral has a digit. -/
theorem decimal_ne_nil (n : Nat) : decimal n ≠ [] := by
  rw [decimal, ne_eq, List.map_eq_nil_iff]
  exact Nat.toDigits_ne_nil

/-- The numeral `operator<<` prints for a signed number. -/
def decimalInt (i : Int) : Bytes := if i < 0 then 45 :: decimal i.natAbs else decimal i.natAbs

/-- Two splits at the last occurrence of a separator agree: neither right part contains it. -/
theorem append_sep_inj {α : Type} {sep : α} {xs ys us vs : List α} (hu : sep ∉ us) (hv : sep ∉ vs)
    (h : xs ++ sep :: us = ys ++ sep :: vs) : xs = ys ∧ us = vs := by
  rcases List.append_eq_append_iff.mp h with ⟨zs, hys, hz⟩ | ⟨zs, hxs, hz⟩
  · cases zs with
    | nil => exact ⟨by simpa using hys.symm, by simpa using hz⟩
    | cons z zs =>
        have hmem : sep ∈ us := by
          have := (List.cons.inj hz).2
          exact this ▸ List.mem_append_right _ (List.mem_cons_self)
        exact absurd hmem hu
  · cases zs with
    | nil => exact ⟨by simpa using hxs, by simpa using hz.symm⟩
    | cons z zs =>
        have hmem : sep ∈ vs := by
          have := (List.cons.inj hz).2
          exact this ▸ List.mem_append_right _ (List.mem_cons_self)
        exact absurd hmem hv

/-- **Joined names are determined.** `base`, a separator that is no digit, and a numeral. -/
theorem append_sep_decimal_inj {sep : UInt8} (hsep : ¬ IsDigit sep) {s t : Bytes}
    {i j : Nat} (h : s ++ sep :: decimal i = t ++ sep :: decimal j) : s = t ∧ i = j := by
  obtain ⟨hst, hij⟩ := append_sep_inj (not_mem_decimal i hsep) (not_mem_decimal j hsep) h
  exact ⟨hst, decimal_injective hij⟩

end Bytes
