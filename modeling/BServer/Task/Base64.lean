import BServer.Base.Bitstream
import BServer.Base.Bytes

/-!
# `Task.Base64` — what decoding gives back

`Base64Encode` copies its input through an iterator adaptor of Boost that cuts it into words of six bits, the
last one filled up with zeros, and appends an `=` for each byte that is missing from the last group of three.
`Base64Decode` copies back through the opposite adaptor. To that one an `=` is a word of six zeros, and nobody
takes the bytes off again that come of it: what is decoded is the input and a zero byte for each `=`
(`base64Decode_base64Encode`).
-/

namespace BServer

open Bytes Bitstream

/-- The characters of the six-bit words. -/
def base64Alphabet : Bytes := ascii "ABCDEFGHIJKLMNOPQRSTUVWXYZabcdefghijklmnopqrstuvwxyz0123456789+/"

/-- The byte `'='`. -/
def base64Pad : UInt8 := 61

/-- The word a character stands for. -/
def base64Value (c : UInt8) : Option Nat :=
  if c = base64Pad then some 0 else base64Alphabet.idxOf? c

/-- The bits of a string. -/
def byteBits (s : Bytes) : List Bool := spread 8 (s.map UInt8.toNat)

/-- The adaptors of Boost, copied from to the end. -/
structure Base64Iterators where
  /-- `base64_from_binary` over `transform_width<_, 6, 8>` -/
  fromBinary : Bytes → Bytes
  /-- `transform_width<_, 8, 6>` over `binary_from_base64`; `none` when it throws -/
  toBinary   : Bytes → Option Bytes

/-- What the adaptors are documented to do: characters for the padded words of a string, and a string of as many
    bytes as the words of the characters have bits for. -/
structure Base64Iterators.Documented (it : Base64Iterators) : Prop where
  fromBinary_eq : ∀ s, it.fromBinary s = (padded 6 (byteBits s)).map (fun v => base64Alphabet.getD v 0)
  toBinary_eq   : ∀ t, it.toBinary t
    = (t.mapM base64Value).map (fun vs => (whole 8 (spread 6 vs)).map UInt8.ofNat)

namespace TaskResponser

variable (it : Base64Iterators)

/-- `task_responser::Base64Encode`: what it returns, and `output`. -/
def base64Encode (input : Bytes) : Bool × Bytes :=
  let result := it.fromBinary input
  let equalCount := (3 - input.length % 3) % 3
  let output := result ++ List.replicate equalCount base64Pad
  (!output.isEmpty, output)

/-- `task_responser::Base64Decode`: what it returns, and `output`. -/
def base64Decode (input output : Bytes) : Bool × Bytes :=
  match it.toBinary input with
  | none        => (false, output)
  | some result => (!result.isEmpty, result)

/-! ## Characters -/

theorem base64Value_alphabet : ∀ v < 64, base64Value (base64Alphabet.getD v 0) = some v := by decide +kernel

theorem mapM_base64Value {vs : List Nat} (hvs : ∀ v ∈ vs, v < 64) (k : Nat) :
    (vs.map (fun v => base64Alphabet.getD v 0) ++ List.replicate k base64Pad).mapM base64Value
      = some (vs ++ List.replicate k 0) := by
  induction vs with
  | nil =>
      induction k with
      | zero => rfl
      | succ k ih =>
          simp only [List.map_nil, List.nil_append] at ih ⊢
          rw [List.replicate_succ, List.mapM_cons, ih]
          rfl
  | cons v vs ih =>
      obtain ⟨hv, hvs⟩ := List.forall_mem_cons.mp hvs
      rw [List.map_cons, List.cons_append, List.mapM_cons, base64Value_alphabet v hv, ih hvs]
      rfl

/-! ## The round trip -/

variable {it}

/-- What is decoded is the input, and a zero byte for each `=`. -/
theorem toBinary_base64Encode (h : it.Documented) (x : Bytes) :
    it.toBinary (base64Encode it x).2 = some (x ++ List.replicate ((3 - x.length % 3) % 3) 0) := by
  have hwords : ∀ v ∈ padded 6 (byteBits x), v < 64 := fun v hv => lt_of_mem_whole hv
  have hbytes : ∀ n ∈ x.map UInt8.toNat, n < 2 ^ 8 := by
    intro n hn
    obtain ⟨b, _, rfl⟩ := List.mem_map.mp hn
    exact b.toNat_lt
  -- the bits filled in and those of the padding make whole bytes
  have hcount : (fill 6 ((x.map UInt8.toNat).length * 8) + (3 - x.length % 3) % 3 * 6) / 8
      = (3 - x.length % 3) % 3 := by
    rw [List.length_map, fill]
    omega
  have hback : (x.map UInt8.toNat).map UInt8.ofNat = x := by
    rw [List.map_map]
    exact (List.map_congr_left (fun b _ => UInt8.ofNat_toNat)).trans (List.map_id x)
  rw [h.toBinary_eq, base64Encode, h.fromBinary_eq, mapM_base64Value hwords, Option.map_some, spread_append,
    spread_zeros, byteBits, whole_padded (by decide) (by decide) hbytes, hcount, List.map_append, hback,
    List.map_replicate]
  rfl

/-- **Which strings come back.** Decoding what was encoded from a string that is not empty succeeds with that
    string exactly if its length is a multiple of three. -/
theorem base64_round_trip_iff (h : it.Documented) {x : Bytes} (hx : x ≠ []) (output : Bytes) :
    base64Decode it (base64Encode it x).2 output = (true, x) ↔ x.length % 3 = 0 := by
  let zeros : Bytes := List.replicate ((3 - x.length % 3) % 3) 0
  have hdecode : base64Decode it (base64Encode it x).2 output = (true, x ++ zeros) := by
    rw [base64Decode, toBinary_base64Encode h]
    cases x with
    | nil => exact absurd rfl hx
    | cons b x => rfl
  have hzeros : x ++ zeros = x ↔ x.length % 3 = 0 := by
    rw [List.append_right_eq_self, List.replicate_eq_nil_iff]
    omega
  rw [hdecode, Prod.mk.injEq, eq_self, true_and, hzeros]

/-- The adaptors as documented. -/
def documented : Base64Iterators where
  fromBinary s := (padded 6 (byteBits s)).map (fun v => base64Alphabet.getD v 0)
  toBinary t := (t.mapM base64Value).map (fun vs => (whole 8 (spread 6 vs)).map UInt8.ofNat)

theorem documented_documented : documented.Documented := ⟨fun _ => rfl, fun _ => rfl⟩

/-- `foo` comes back from `Zm9v`. -/
theorem base64_round_trip_foo :
    (base64Encode documented (ascii "foo")).2 = ascii "Zm9v" ∧
      base64Decode documented (base64Encode documented (ascii "foo")).2 [] = (true, ascii "foo") :=
  ⟨by decide, (base64_round_trip_iff documented_documented (by decide) []).mpr (by decide)⟩

/-- `f` comes back from `Zg==` with two zero bytes. -/
theorem base64_round_trip_f :
    ¬ ∀ it : Base64Iterators, it.Documented → ∀ x output : Bytes, x ≠ [] →
      base64Decode it (base64Encode it x).2 output = (true, x) := by
  intro h
  have hback := h documented documented_documented (ascii "f") [] (by decide)
  have htwo : base64Decode documented (base64Encode documented (ascii "f")).2 []
      = (true, ascii "f" ++ [0, 0]) := by decide
  exact absurd (htwo.symm.trans hback) (by decide)

end TaskResponser

end BServer
