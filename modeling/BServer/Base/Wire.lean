import Mathlib.Data.List.Basic
import BServer.Base.Bytes

/-!
# `Base.Wire` — tagged fields, and message codecs built on them

The encoding protocol buffers use between machines, as far as singular fields go. A message on the wire is a
sequence of `Field`s: a number, and a varint, a 64-bit word, or a length-delimited byte string. `decode` is a
left inverse of `encode` (`decode_encode`).

`Codec` is what a program relies on from the runtime for one message class, and nothing more: what is
serialised parses back, unless a required field is missing, in which case nothing parses. Programs are verified
against an arbitrary `Codec`. A `Schema` is how to obtain one: the list of a message's fields, each with its
number, its type and its place in the record. A schema with distinct numbers that covers the record is
`Lossless`, and gives a codec (`Schema.codec`). Where its fields are `Apart`, they may come in any order, and past
fields it does not know (`Schema.Same.merge_eq`).
-/

namespace Wire

/-- What a field carries. -/
inductive Value where
  | varint (n : Nat)
  | fixed64 (w : BitVec 64)
  | delimited (b : Bytes)
deriving DecidableEq, Repr

structure Field where
  number : Nat
  value  : Value
deriving DecidableEq, Repr

/-! ## Varints -/

/-- Seven bits a byte, low bits first; the high bit says that more follow. -/
def putVarint (n : Nat) : Bytes :=
  if n < 128 then [UInt8.ofNat n] else UInt8.ofNat (n % 128 + 128) :: putVarint (n / 128)
termination_by n
decreasing_by omega

/-- The number in front, and what follows it. -/
def takeVarint : Bytes → Option (Nat × Bytes)
  | [] => none
  | b :: bs =>
      if b.toNat < 128 then some (b.toNat, bs)
      else (takeVarint bs).map (fun r => (b.toNat - 128 + 128 * r.1, r.2))

theorem takeVarint_putVarint (n : Nat) (rest : Bytes) :
    takeVarint (putVarint n ++ rest) = some (n, rest) := by
  induction n using Nat.strongRecOn with
  | ind n ih =>
      rw [putVarint]
      split
      · next h =>
          have hb : (UInt8.ofNat n).toNat = n := by
            rw [UInt8.toNat_ofNat']
            omega
          simp [takeVarint, hb, h]
      · next h =>
          have hb : (UInt8.ofNat (n % 128 + 128)).toNat = n % 128 + 128 := by
            rw [UInt8.toNat_ofNat']
            omega
          rw [List.cons_append, takeVarint, hb, if_neg (by omega), ih (n / 128) (by omega)]
          simp only [Option.map_some, Option.some.injEq, Prod.mk.injEq, and_true]
          omega

/-- At least one byte is consumed. -/
theorem takeVarint_length {bs : Bytes} :
    ∀ {n : Nat} {rest : Bytes}, takeVarint bs = some (n, rest) → rest.length < bs.length := by
  induction bs with
  | nil => intro n rest h; cases h
  | cons b bs ih =>
      intro n rest h
      rw [takeVarint] at h
      split at h
      · cases h
        exact Nat.lt_succ_self _
      · obtain ⟨⟨m, rest'⟩, hr, he⟩ := Option.map_eq_some_iff.mp h
        cases he
        exact Nat.lt_succ_of_lt (ih hr)

/-! ## 64-bit words -/

/-- The eight bytes of a word, low byte first. -/
def putFixed64 (w : BitVec 64) : Bytes :=
  (List.range 8).map (fun i => UInt8.ofNat (w.toNat / 256 ^ i))

/-- The number a byte string spells, low byte first. -/
def ofLittleEndian : Bytes → Nat
  | []      => 0
  | b :: bs => b.toNat + 256 * ofLittleEndian bs

theorem ofLittleEndian_putFixed64 (w : BitVec 64) :
    BitVec.ofNat 64 (ofLittleEndian (putFixed64 w)) = w := by
  have hw : w.toNat < 2 ^ 64 := w.isLt
  apply BitVec.eq_of_toNat_eq
  rw [BitVec.toNat_ofNat]
  simp only [putFixed64, List.range, List.range.loop, List.map_cons, List.map_nil, ofLittleEndian,
    UInt8.toNat_ofNat']
  omega

/-! ## Fields -/

/-- A key is the field number and the wire type in the low three bits. -/
def putField (f : Field) : Bytes :=
  match f.value with
  | .varint n    => putVarint (f.number * 8) ++ putVarint n
  | .fixed64 w   => putVarint (f.number * 8 + 1) ++ putFixed64 w
  | .delimited b => putVarint (f.number * 8 + 2) ++ (putVarint b.length ++ b)

/-- The field in front, and what follows it. -/
def takeField (bs : Bytes) : Option (Field × Bytes) :=
  (takeVarint bs).bind fun (key, rest) =>
    if key % 8 = 0 then (takeVarint rest).map (fun r => (⟨key / 8, .varint r.1⟩, r.2))
    else if key % 8 = 1 then
      if rest.length < 8 then none
      else some (⟨key / 8, .fixed64 (BitVec.ofNat 64 (ofLittleEndian (rest.take 8)))⟩, rest.drop 8)
    else if key % 8 = 2 then
      (takeVarint rest).bind fun (n, rest) =>
        if rest.length < n then none else some (⟨key / 8, .delimited (rest.take n)⟩, rest.drop n)
    else none

theorem takeField_putField (f : Field) (rest : Bytes) : takeField (putField f ++ rest) = some (f, rest) := by
  obtain ⟨k, v⟩ := f
  cases v with
  | varint n =>
      simp only [takeField, putField]
      rw [List.append_assoc, takeVarint_putVarint, Option.bind_some, takeVarint_putVarint]
      simp
  | fixed64 w =>
      have hlen : (putFixed64 w).length = 8 := rfl
      have hmod : (k * 8 + 1) % 8 = 1 := by omega
      have hdiv : (k * 8 + 1) / 8 = k := by omega
      simp only [takeField, putField]
      rw [List.append_assoc, takeVarint_putVarint, Option.bind_some, hmod, hdiv, List.take_left' hlen,
        List.drop_left' hlen, ofLittleEndian_putFixed64]
      simp [hlen]
  | delimited b =>
      have hmod : (k * 8 + 2) % 8 = 2 := by omega
      have hdiv : (k * 8 + 2) / 8 = k := by omega
      simp only [takeField, putField]
      rw [List.append_assoc, takeVarint_putVarint, Option.bind_some, hmod, hdiv, List.append_assoc,
        takeVarint_putVarint, Option.bind_some]
      simp

theorem takeField_length {bs : Bytes} {f : Field} {rest : Bytes} (h : takeField bs = some (f, rest)) :
    rest.length < bs.length := by
  obtain ⟨⟨key, r⟩, hk, h⟩ := Option.bind_eq_some_iff.mp h
  have hr := takeVarint_length hk
  simp only at h
  split at h
  · obtain ⟨⟨n, r'⟩, hn, he⟩ := Option.map_eq_some_iff.mp h
    cases he
    exact Nat.lt_trans (takeVarint_length hn) hr
  · split at h
    · split at h
      · cases h
      · cases h
        rw [List.length_drop]
        omega
    · split at h
      · obtain ⟨⟨n, r'⟩, hn, h⟩ := Option.bind_eq_some_iff.mp h
        have hn' := takeVarint_length hn
        simp only at h
        split at h
        · cases h
        · cases h
          rw [List.length_drop]
          omega
      · cases h

/-- The fields of a message, one after the other. -/
def encode (fs : List Field) : Bytes := fs.flatMap putField

def decode (bs : Bytes) : Option (List Field) :=
  if bs = [] then some []
  else match _h : takeField bs with
    | none => none
    | some (f, rest) => (decode rest).map (f :: ·)
termination_by bs.length
decreasing_by exact takeField_length _h

theorem putField_ne_nil (f : Field) : putField f ≠ [] := by
  intro h
  have ht := takeField_putField f []
  rw [h] at ht
  cases ht

/-- **Field round trip.** -/
theorem decode_encode (fs : List Field) : decode (encode fs) = some fs := by
  induction fs with
  | nil => rw [encode, List.flatMap_nil, decode, if_pos rfl]
  | cons f fs ih =>
      have hne : putField f ++ encode fs ≠ [] := fun h => putField_ne_nil f (List.append_eq_nil_iff.mp h).1
      rw [show encode (f :: fs) = putField f ++ encode fs from List.flatMap_cons, decode, if_neg hne]
      split
      · next h => rw [takeField_putField] at h; cases h
      · next f' rest h =>
          rw [takeField_putField] at h
          cases h
          rw [ih]
          rfl

/-! ## Message codecs -/

/-- A message class: the message without any field, and whether the required fields are all set. -/
class Message (μ : Type) where
  empty : μ
  isInitialized : μ → Bool

/-- **What a program relies on.** `serialize` writes what is set, whether or not that is enough; `parse`
    refuses bytes without the required fields. An empty message takes no bytes. -/
structure Codec (μ : Type) [Message μ] where
  serialize : μ → Bytes
  parse : Bytes → Option μ
  parse_serialize : ∀ m, parse (serialize m) = if Message.isInitialized m then some m else none
  parse_initialized : ∀ b m, parse b = some m → Message.isInitialized m = true
  serialize_empty : serialize Message.empty = []

namespace Codec

variable {μ : Type} [Message μ] (c : Codec μ)

theorem parse_of_initialized {m : μ} (h : Message.isInitialized m = true) :
    c.parse (c.serialize m) = some m := by rw [c.parse_serialize, if_pos h]

theorem parse_of_missing {m : μ} (h : Message.isInitialized m = false) :
    c.parse (c.serialize m) = none := by
  rw [c.parse_serialize, h]
  rfl

/-- Where some field is required, no bytes at all do not parse. -/
theorem parse_nil (h : Message.isInitialized (Message.empty : μ) = false) : c.parse [] = none := by
  rw [← c.serialize_empty, c.parse_of_missing h]

end Codec

/-! ## Schemas -/

/-- A field type: how a value is written, and how a value off the wire is merged into what the field holds.
    `none` means malformed content; a field of another wire type is left to the unknown ones. -/
structure Kind (α : Type) where
  enc       : α → Value
  merge     : Option α → Value → Option (Option α)
  merge_enc : ∀ a, merge none (enc a) = some (some a)

/-- A singular field of a message class. -/
structure FieldSpec (μ : Type) where
  number  : Nat
  {α : Type}
  kind    : Kind α
  get     : μ → Option α
  set     : μ → Option α → μ
  get_set : ∀ m a, get (set m a) = a := by intros; rfl

/-- The fields of a message class, in the order they are written. -/
abbrev Schema (μ : Type) := List (FieldSpec μ)

namespace FieldSpec

variable {μ : Type}

/-- The field as written, when it is set. -/
def written (f : FieldSpec μ) (m : μ) : List Field :=
  match f.get m with
  | none   => []
  | some a => [⟨f.number, f.kind.enc a⟩]

/-- A value off the wire, merged into the message. -/
def merge (f : FieldSpec μ) (m : μ) (v : Value) : Option μ :=
  (f.kind.merge (f.get m) v).map (f.set m)

/-- Merging into an unset field what a message has written there. -/
theorem merge_enc (f : FieldSpec μ) {m : μ} (hunset : f.set m none = m) (a : f.α) :
    f.merge m (f.kind.enc a) = some (f.set m (some a)) := by
  have hget : f.get m = none := by rw [← hunset, f.get_set]
  rw [merge, hget, f.kind.merge_enc]
  rfl

end FieldSpec

namespace Schema

variable {μ : Type} (s : Schema μ)

def fields (m : μ) : List Field := s.flatMap (fun f => f.written m)

def serialize (m : μ) : Bytes := encode (s.fields m)

/-- One field off the wire; an unknown number is skipped. -/
def put (m : μ) (w : Field) : Option μ :=
  match s.find? (fun f => f.number = w.number) with
  | some f => f.merge m w.value
  | none   => some m

/-- The fields in `b`, merged into `m`. -/
def merge (m : μ) (b : Bytes) : Option μ := (decode b).bind (List.foldlM s.put m)

/-- Setting the fields one by one, starting from `acc`, where each is unset, leads to `m`. -/
def Restores (m : μ) : μ → List (FieldSpec μ) → Prop
  | acc, []      => acc = m
  | acc, f :: fs => f.set acc none = acc ∧ Restores m (f.set acc (f.get m)) fs

/-- A schema whose merge gives back what was written: distinct numbers, and enough fields. -/
structure Lossless [Message μ] : Prop where
  nodup    : (s.map FieldSpec.number).Nodup
  restores : ∀ m, Restores m Message.empty s

variable {s}

/-- Among distinct numbers, a field finds itself. -/
theorem find?_number (hn : (s.map FieldSpec.number).Nodup) {f : FieldSpec μ} (hf : f ∈ s) :
    s.find? (fun g => g.number = f.number) = some f := by
  induction s with
  | nil => cases hf
  | cons g s ih =>
      rw [List.map_cons, List.nodup_cons] at hn
      rcases List.mem_cons.mp hf with rfl | hf
      · exact List.find?_cons_of_pos (by simp)
      · have hne : g.number ≠ f.number := fun h => hn.1 (h ▸ List.mem_map_of_mem hf)
        rw [List.find?_cons_of_neg (by simpa using hne)]
        exact ih hn.2 hf

/-- Merging what the fields in `fs` wrote of `m` continues to `m`. -/
theorem foldlM_written (hn : (s.map FieldSpec.number).Nodup) (m : μ) (fs : List (FieldSpec μ)) :
    ∀ acc, fs ⊆ s → Restores m acc fs →
      (fs.flatMap (fun f => f.written m)).foldlM s.put acc = some m := by
  induction fs with
  | nil => intro acc _ hr; exact congrArg some hr
  | cons f fs ih =>
      intro acc hsub hr
      have hfs : fs ⊆ s := fun g hg => hsub (List.mem_cons_of_mem f hg)
      have hnext := ih _ hfs hr.2
      rw [List.flatMap_cons]
      cases hget : f.get m with
      -- an unset field wrote nothing, and restoring it changes nothing
      | none =>
          rw [hget, hr.1] at hnext
          rw [FieldSpec.written, hget]
          exact hnext
      | some a =>
          rw [hget] at hnext
          have hput : s.put acc ⟨f.number, f.kind.enc a⟩ = some (f.set acc (some a)) := by
            rw [put, find?_number hn (hsub List.mem_cons_self)]
            exact f.merge_enc hr.1 a
          rw [FieldSpec.written, hget]
          show (s.put acc _).bind _ = _
          rw [hput]
          exact hnext

variable [Message μ]

/-- **Message round trip**, required fields or not. -/
theorem Lossless.merge_serialize (h : s.Lossless) (m : μ) :
    s.merge Message.empty (s.serialize m) = some m := by
  rw [merge, serialize, decode_encode, Option.bind_some]
  exact foldlM_written h.nodup m s _ (fun _ hf => hf) (h.restores m)

/-- **A lossless schema is a codec.** -/
def codec (s : Schema μ) (h : s.Lossless) (hempty : s.fields Message.empty = []) : Codec μ where
  serialize := s.serialize
  parse b := (s.merge Message.empty b).filter Message.isInitialized
  parse_serialize := fun m => by
    rw [h.merge_serialize]
    exact Option.filter_some
  parse_initialized := fun b m hm => (Option.filter_eq_some_iff.mp hm).2
  serialize_empty := by rw [serialize, hempty]; rfl

end Schema

/-! ## Any order -/

namespace FieldSpec

variable {μ : Type}

/-- Two fields of a record, neither of which is part of the other. -/
structure Apart (f g : FieldSpec μ) : Prop where
  set_set : ∀ m a b, g.set (f.set m a) b = f.set (g.set m b) a
  get_set : ∀ m b, f.get (g.set m b) = f.get m
  get_set_left : ∀ m a, g.get (f.set m a) = g.get m

theorem apart_iff (f g : FieldSpec μ) : f.Apart g ↔
    (∀ m a b, g.set (f.set m a) b = f.set (g.set m b) a) ∧ (∀ m b, f.get (g.set m b) = f.get m) ∧
    ∀ m a, g.get (f.set m a) = g.get m :=
  ⟨fun h => ⟨h.set_set, h.get_set, h.get_set_left⟩, fun h => ⟨h.1, h.2.1, h.2.2⟩⟩

/-- What comes for the two may come in either order. -/
theorem Apart.merge_comm {f g : FieldSpec μ} (h : f.Apart g) (m : μ) (u v : Value) :
    (f.merge m u).bind (fun m => g.merge m v) = (g.merge m v).bind (fun m => f.merge m u) := by
  unfold merge
  cases hf : f.kind.merge (f.get m) u with
  | none =>
      cases hg : g.kind.merge (g.get m) v with
      | none => rfl
      | some b => simp [h.get_set, hf]
  | some a =>
      cases hg : g.kind.merge (g.get m) v with
      | none => simp [h.get_set_left, hg]
      | some b => simp [h.get_set, h.get_set_left, hf, hg, h.set_set]

end FieldSpec

/-- What comes under a number, in order. -/
def valuesOf (n : Nat) (ws : List Field) : List Value := (ws.filter (fun w => w.number = n)).map Field.value

theorem valuesOf_cons_self (w : Field) (ws : List Field) :
    valuesOf w.number (w :: ws) = w.value :: valuesOf w.number ws := by simp [valuesOf]

theorem valuesOf_cons_ne {n : Nat} {w : Field} (h : w.number ≠ n) (ws : List Field) :
    valuesOf n (w :: ws) = valuesOf n ws := by simp [valuesOf, h]

namespace Schema

variable {μ : Type}

/-- The fields are independent of each other. -/
def Apart (s : Schema μ) : Prop := s.Pairwise FieldSpec.Apart

/-- The fields in `ws` merged number by number, in the order of the schema. -/
def gather (s : Schema μ) (m : μ) (ws : List Field) : Option μ :=
  s.foldlM (fun m f => (valuesOf f.number ws).foldlM f.merge m) m

theorem gather_cons (f : FieldSpec μ) (s : Schema μ) (m : μ) (ws : List Field) :
    gather (f :: s) m ws = ((valuesOf f.number ws).foldlM f.merge m).bind (fun m => gather s m ws) := rfl

/-- A field ahead of those of another number. -/
theorem merge_foldlM {f g : FieldSpec μ} (h : f.Apart g) (vs : List Value) (v : Value) (m : μ) :
    (vs.foldlM f.merge m).bind (fun m => g.merge m v) = (g.merge m v).bind (fun m => vs.foldlM f.merge m) := by
  induction vs generalizing m with
  | nil =>
      show g.merge m v = (g.merge m v).bind some
      rw [Option.bind_fun_some]
  | cons u vs ih =>
      show ((f.merge m u).bind (fun m => vs.foldlM f.merge m)).bind (fun m => g.merge m v) = _
      rw [Option.bind_assoc]
      simp only [ih]
      rw [← Option.bind_assoc, h.merge_comm, Option.bind_assoc]
      rfl

/-- Fields of other numbers do not count. -/
theorem gather_other {s : Schema μ} {w : Field} (h : ∀ f ∈ s, w.number ≠ f.number) (m : μ) (ws : List Field) :
    gather s m (w :: ws) = gather s m ws := by
  induction s generalizing m with
  | nil => rfl
  | cons f s ih =>
      obtain ⟨hf, hs⟩ := List.forall_mem_cons.mp h
      rw [gather_cons, gather_cons, valuesOf_cons_ne hf]
      simp only [ih hs]

/-- The first field in `ws` may be merged before everything else. -/
theorem gather_first {s : Schema μ} (hn : (s.map FieldSpec.number).Nodup) (ha : s.Apart) {f : FieldSpec μ}
    (hf : f ∈ s) {w : Field} (hw : w.number = f.number) (m : μ) (ws : List Field) :
    gather s m (w :: ws) = (f.merge m w.value).bind (fun m => gather s m ws) := by
  induction s generalizing m with
  | nil => cases hf
  | cons g s ih =>
      rw [List.map_cons, List.nodup_cons] at hn
      obtain ⟨hg, ha⟩ := List.pairwise_cons.mp ha
      rw [gather_cons]
      rcases List.mem_cons.mp hf with rfl | hf
      · have hother : ∀ g ∈ s, w.number ≠ g.number := by
          intro g hmem heq
          rw [hw] at heq
          exact hn.1 (heq ▸ List.mem_map_of_mem hmem)
        rw [← hw, valuesOf_cons_self, hw]
        simp only [gather_other hother]
        show ((f.merge m w.value).bind fun m => (valuesOf f.number ws).foldlM f.merge m).bind _ = _
        rw [Option.bind_assoc]
        rfl
      · have hne : w.number ≠ g.number := by
          rw [hw]
          intro heq
          exact hn.1 (heq ▸ List.mem_map_of_mem hf)
        rw [valuesOf_cons_ne hne]
        simp only [ih hn.2 ha hf]
        rw [← Option.bind_assoc, merge_foldlM (hg f hf), Option.bind_assoc]
        rfl

/-- **Any order.** Fields are merged as they come, with the same result. -/
theorem foldlM_put {s : Schema μ} (hn : (s.map FieldSpec.number).Nodup) (ha : s.Apart) (ws : List Field) (m : μ) :
    ws.foldlM s.put m = gather s m ws := by
  induction ws generalizing m with
  | nil =>
      have hnil : ∀ t : Schema μ, gather t m [] = some m := by
        intro t
        induction t with
        | nil => rfl
        | cons f t ih => exact ih
      exact (hnil s).symm
  | cons w ws ih =>
      show (s.put m w).bind (fun m => ws.foldlM s.put m) = _
      simp only [ih]
      rw [put]
      cases hfind : s.find? (fun f => f.number = w.number) with
      | none =>
          have hother : ∀ f ∈ s, w.number ≠ f.number := by
            intro f hf heq
            have hno := List.find?_eq_none.mp hfind f hf
            simp [heq] at hno
          rw [gather_other hother]
          rfl
      | some f =>
          have hnumber : f.number = w.number := by simpa using List.find?_some hfind
          exact (gather_first hn ha (List.mem_of_find?_eq_some hfind) hnumber.symm m ws).symm

end Schema

/-! ## Field types -/

namespace Kind

/-- `string`, `bytes`. -/
def bytes : Kind Bytes where
  enc := .delimited
  merge cur v := match v with
    | .delimited b => some (some b)
    | _ => some cur
  merge_enc _ := rfl

/-- `int32`: written sign-extended, truncated when read. -/
def int32 : Kind (BitVec 32) where
  enc w := .varint (w.signExtend 64).toNat
  merge cur v := match v with
    | .varint n => some (some (BitVec.ofNat 32 n))
    | _ => some cur
  merge_enc w := by
    show some (some (BitVec.ofNat 32 (w.signExtend 64).toNat)) = some (some w)
    rw [BitVec.ofNat_toNat]
    congr 2
    -- the low 32 bits of the sign extension are the word itself
    ext i hi
    rw [BitVec.getElem_setWidth, BitVec.getLsbD_signExtend]
    simp [hi, Nat.lt_trans hi (by decide : 32 < 64)]

/-- `int64`. -/
def int64 : Kind (BitVec 64) where
  enc w := .varint w.toNat
  merge cur v := match v with
    | .varint n => some (some (BitVec.ofNat 64 n))
    | _ => some cur
  merge_enc w := by
    show some (some (BitVec.ofNat 64 w.toNat)) = some (some w)
    rw [BitVec.ofNat_toNat, BitVec.setWidth_eq]

/-- `double`, as its bit pattern. -/
def double : Kind (BitVec 64) where
  enc w := .fixed64 w
  merge cur v := match v with
    | .fixed64 w => some (some w)
    | _ => some cur
  merge_enc _ := rfl

/-- A message inside a message. -/
def message {ν : Type} [Message ν] (s : Schema ν) (h : s.Lossless) : Kind ν where
  enc m := .delimited (s.serialize m)
  merge cur v := match v with
    | .delimited b => (s.merge (cur.getD Message.empty) b).map some
    | _ => some cur
  merge_enc m := by
    show (s.merge Message.empty (s.serialize m)).map some = _
    rw [h.merge_serialize]
    rfl

end Kind

/-! ## Encodings of one message -/

/-- What a key and a value have room for on the wire. -/
def Field.Legal (f : Field) : Prop :=
  0 < f.number ∧ f.number < 2 ^ 29 ∧
  match f.value with
  | .varint n    => n < 2 ^ 64
  | .fixed64 _   => True
  | .delimited b => b.length < 2 ^ 31

/-- Two values of a field say the same: they are equal, or two encodings of one message inside. -/
inductive Kind.Same : {α : Type} → Kind α → Value → Value → Prop
  | refl {α : Type} (k : Kind α) (v : Value) : Same k v v
  | message {ν : Type} [Message ν] {s : Schema ν} (h : s.Lossless) (ha : s.Apart) (us vs : List Field)
      (hus : ∀ w ∈ us, w.Legal) (hvs : ∀ w ∈ vs, w.Legal)
      (hlength : ∀ f ∈ s, (valuesOf f.number us).length = (valuesOf f.number vs).length)
      (hsame : ∀ f ∈ s, ∀ p ∈ (valuesOf f.number us).zip (valuesOf f.number vs), Same f.kind p.1 p.2) :
      Same (Kind.message s h) (.delimited (encode us)) (.delimited (encode vs))

/-- Two lists of fields say the same to a schema: under each of its numbers the same values, in order. Between
    different numbers the order is free, and whatever else there is does not matter. -/
def Schema.Same {μ : Type} (s : Schema μ) (us vs : List Field) : Prop :=
  ∀ f ∈ s, (valuesOf f.number us).length = (valuesOf f.number vs).length ∧
    ∀ p ∈ (valuesOf f.number us).zip (valuesOf f.number vs), f.kind.Same p.1 p.2

theorem Kind.Same.zip_self {α : Type} (k : Kind α) (vs : List Value) : ∀ p ∈ vs.zip vs, k.Same p.1 p.2 := by
  intro p hp
  obtain ⟨i, hi, rfl⟩ := List.mem_iff_getElem.mp hp
  rw [List.getElem_zip]
  exact .refl k _

theorem Kind.Same.of_schema {ν : Type} [Message ν] {s : Schema ν} (h : s.Lossless) (ha : s.Apart)
    {us vs : List Field} (hus : ∀ w ∈ us, w.Legal) (hvs : ∀ w ∈ vs, w.Legal) (hs : s.Same us vs) :
    (Kind.message s h).Same (.delimited (encode us)) (.delimited (encode vs)) :=
  .message h ha us vs hus hvs (fun f hf => (hs f hf).1) (fun f hf => (hs f hf).2)

/-- The same values under each number. -/
theorem Schema.Same.of_values {μ : Type} {s : Schema μ} {us vs : List Field}
    (h : ∀ f ∈ s, valuesOf f.number us = valuesOf f.number vs) : s.Same us vs := by
  intro f hf
  rw [h f hf]
  exact ⟨rfl, Kind.Same.zip_self _ _⟩

/-- The same values under each number but one, which is used once. -/
theorem Schema.Same.of_inner {μ : Type} {s : Schema μ} (hn : (s.map FieldSpec.number).Nodup) {f : FieldSpec μ}
    (hf : f ∈ s) {us vs : List Field} {u v : Value} (hu : valuesOf f.number us = [u])
    (hv : valuesOf f.number vs = [v]) (huv : f.kind.Same u v)
    (hrest : ∀ g ∈ s, g.number ≠ f.number → valuesOf g.number us = valuesOf g.number vs) : s.Same us vs := by
  intro g hg
  by_cases hne : g.number = f.number
  · have hfind := Schema.find?_number hn hg
    rw [hne, Schema.find?_number hn hf] at hfind
    cases hfind
    rw [hu, hv]
    refine ⟨rfl, fun p hp => ?_⟩
    rw [List.mem_singleton.mp hp]
    exact huv
  · rw [hrest g hg hne]
    exact ⟨rfl, Kind.Same.zip_self _ _⟩

theorem foldlM_zip {α β : Type} {g : α → β → Option α} {us vs : List β} (hlength : us.length = vs.length)
    (h : ∀ p ∈ us.zip vs, ∀ a, g a p.1 = g a p.2) (a : α) : us.foldlM g a = vs.foldlM g a := by
  induction us generalizing vs a with
  | nil => rw [List.length_eq_zero_iff.mp hlength.symm]
  | cons u us ih =>
      cases vs with
      | nil => cases hlength
      | cons v vs =>
          obtain ⟨hp, hps⟩ := List.forall_mem_cons.mp h
          rw [List.foldlM_cons, List.foldlM_cons, hp a]
          simp only [ih (Nat.succ.inj hlength) hps]

theorem Schema.gather_congr {μ : Type} {s : Schema μ} {us vs : List Field}
    (hlength : ∀ f ∈ s, (valuesOf f.number us).length = (valuesOf f.number vs).length)
    (h : ∀ f ∈ s, ∀ p ∈ (valuesOf f.number us).zip (valuesOf f.number vs), ∀ cur,
      f.kind.merge cur p.1 = f.kind.merge cur p.2) (m : μ) : s.gather m us = s.gather m vs := by
  induction s generalizing m with
  | nil => rfl
  | cons f s ih =>
      obtain ⟨hf, hs⟩ := List.forall_mem_cons.mp hlength
      obtain ⟨hp, hps⟩ := List.forall_mem_cons.mp h
      rw [gather_cons, gather_cons, foldlM_zip hf]
      · simp only [ih hs hps]
      · intro p hmem m
        rw [FieldSpec.merge, FieldSpec.merge, hp p hmem]

/-- What says the same is merged with the same result. -/
theorem Kind.Same.merge_eq {α : Type} {k : Kind α} {u v : Value} (h : k.Same u v) (cur : Option α) :
    k.merge cur u = k.merge cur v := by
  induction h with
  | refl => rfl
  | message h ha us vs _ _ hlength _ ih =>
      show (Schema.merge _ _ (encode us)).map some = (Schema.merge _ _ (encode vs)).map some
      rw [Schema.merge, Schema.merge, decode_encode, decode_encode, Option.bind_some, Option.bind_some,
        Schema.foldlM_put h.nodup ha, Schema.foldlM_put h.nodup ha, Schema.gather_congr hlength ih]

/-- **Two encodings of one message** are merged with the same result. -/
theorem Schema.Same.merge_eq {μ : Type} {s : Schema μ} (hn : (s.map FieldSpec.number).Nodup) (ha : s.Apart)
    {us vs : List Field} (h : s.Same us vs) (m : μ) : s.merge m (encode us) = s.merge m (encode vs) := by
  rw [merge, merge, decode_encode, decode_encode, Option.bind_some, Option.bind_some, foldlM_put hn ha,
    foldlM_put hn ha]
  exact gather_congr (fun f hf => (h f hf).1) (fun f hf p hp => ((h f hf).2 p hp).merge_eq) m

/-- And parsed alike. -/
theorem Schema.Same.parse_eq {μ : Type} [Message μ] {s : Schema μ} (hs : s.Lossless)
    (hempty : s.fields Message.empty = []) (ha : s.Apart) {us vs : List Field} (h : s.Same us vs) :
    (s.codec hs hempty).parse (encode us) = (s.codec hs hempty).parse (encode vs) := by
  show (s.merge _ _).filter _ = (s.merge _ _).filter _
  rw [h.merge_eq hs.nodup ha]

end Wire
