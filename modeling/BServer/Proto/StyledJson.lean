import BServer.Proto.JsonParser

/-!
# `Proto.StyledJson` — a writer and a reader that are faithful

`JsonCpp` is a parameter, and what is asked of it (`JsonCpp.Faithful`) is met by this library. It writes plain
values the way `StyledWriter` does, one member a line, with three blanks for each level. Its reader takes fuel,
of which it needs no more than the text is long.

Reading follows the text: a string body byte by byte (`readChars_quoted`), an integer digit by digit
(`readInt_decimalInt`), and a value by its structure (`readValue_styled`).
-/

namespace BServer

open Bytes

namespace StyledJson

/-! ## Writing -/

/-- The letters that stand for a byte behind a backslash. -/
def escapes : List (UInt8 × UInt8) :=
  [(34, 34), (92, 92), (8, 98), (12, 102), (10, 110), (13, 114), (9, 116)]

/-- A digit to the base sixteen. -/
def hexDigit (n : Nat) : UInt8 := UInt8.ofNat (if n < 10 then 48 + n else 55 + n)

/-- A byte of a string. -/
def escaped (b : UInt8) : Bytes :=
  match escapes.lookup b with
  | some e => [92, e]
  | none => if b < 32 then ascii "\\u00" ++ [hexDigit (b.toNat / 16), hexDigit (b.toNat % 16)] else [b]

def quoted (s : Bytes) : Bytes := 34 :: (s.flatMap escaped ++ [34])

/-- A new line at a level of indentation. -/
def newline (level : Nat) : Bytes := 10 :: List.replicate (3 * level) 32

mutual

/-- A value at a level of indentation. What is not plain is written as null. -/
def styled (level : Nat) : Json → Bytes
  | .string s  => quoted s
  | .int i     => decimalInt i
  | .object ms => 123 :: styledMembers level ms
  | _          => ascii "null"
termination_by structural v => v

/-- The members of an object, and the brace behind them. -/
def styledMembers (level : Nat) : List (Bytes × Json) → Bytes
  | []      => [125]
  | m :: ms =>
      styledMember (level + 1) m ++ if ms.isEmpty then newline level ++ [125] else 44 :: styledMembers level ms
termination_by structural ms => ms

def styledMember (level : Nat) : Bytes × Json → Bytes
  | (k, v) => newline level ++ (quoted k ++ (ascii " : " ++ styled level v))
termination_by structural m => m

end

/-! ## Reading -/

def skipWs (t : Bytes) : Bytes := t.dropWhile (fun b => b = 32 ∨ b = 9 ∨ b = 10 ∨ b = 13)

/-- What follows the colon. -/
def colonBefore (t : Bytes) : Option Bytes :=
  match skipWs t with
  | 58 :: t => some t
  | _       => none

def hexValue (b : UInt8) : Nat := if b < 58 then b.toNat - 48 else b.toNat - 55

/-- A string, from behind its quotation mark. -/
def readChars : Bytes → Option (Bytes × Bytes)
  | []     => none
  | b :: t =>
      if b = 34 then some ([], t)
      else if b = 92 then
        match t with
        | 117 :: _ :: _ :: x :: y :: t =>
            (readChars t).map (fun (s, r) => (UInt8.ofNat (hexValue x * 16 + hexValue y) :: s, r))
        | e :: t =>
            match (escapes.map Prod.swap).lookup e with
            | some b => (readChars t).map (fun (s, r) => (b :: s, r))
            | none   => none
        | [] => none
      else (readChars t).map (fun (s, r) => (b :: s, r))

def readDigits (t : Bytes) : Nat × Bytes :=
  (ofDecimal (t.takeWhile (fun b => IsDigit b)), t.dropWhile (fun b => IsDigit b))

def readInt : Bytes → Option (Int × Bytes)
  | []     => none
  | b :: t =>
      if b = 45 then some (-((readDigits t).1 : Int), (readDigits t).2)
      else if IsDigit b then some (((readDigits (b :: t)).1 : Int), (readDigits (b :: t)).2)
      else none

mutual

/-- A value. -/
def readValue : Nat → Bytes → Option (Json × Bytes)
  | 0, _        => none
  | fuel + 1, t =>
      match skipWs t with
      | 34 :: t  => (readChars t).map (fun (s, r) => (.string s, r))
      | 123 :: t => (readMembers fuel t).map (fun (ms, r) => (.object ms, r))
      | t        => (readInt t).map (fun (i, r) => (.int i, r))

/-- The members of an object, and the brace behind them. -/
def readMembers : Nat → Bytes → Option (List (Bytes × Json) × Bytes)
  | 0, _        => none
  | fuel + 1, t =>
      match skipWs t with
      | 125 :: r => some ([], r)
      | 34 :: t  => do
          let (k, t) ← readChars t
          let t ← colonBefore t
          let (v, t) ← readValue fuel t
          match skipWs t with
          | 125 :: r => some ([(k, v)], r)
          | 44 :: t  => (readMembers fuel t).map (fun (ms, r) => ((k, v) :: ms, r))
          | _        => none
      | _ => none

end

/-! ## Strings -/

theorem readChars_escape {b e : UInt8} (he : e ≠ 117) (hb : (escapes.map Prod.swap).lookup e = some b)
    (t : Bytes) : readChars (92 :: e :: t) = (readChars t).map (fun (s, r) => (b :: s, r)) := by
  rw [readChars, if_neg (by decide), if_pos rfl, hb]
  -- the letter of a code unit is none of the others
  intro _ _ _ _ _ hu _
  exact he hu

theorem readChars_unicode (x y : UInt8) (t : Bytes) :
    readChars (ascii "\\u00" ++ x :: y :: t)
      = (readChars t).map (fun (s, r) => (UInt8.ofNat (hexValue x * 16 + hexValue y) :: s, r)) := by
  show readChars (92 :: 117 :: 48 :: 48 :: x :: y :: t) = _
  rw [readChars, if_neg (by decide), if_pos rfl]

theorem readChars_plain {b : UInt8} (hquote : b ≠ 34) (hbackslash : b ≠ 92) (t : Bytes) :
    readChars (b :: t) = (readChars t).map (fun (s, r) => (b :: s, r)) := by
  rw [readChars.eq_def]
  simp only [if_neg hquote, if_neg hbackslash]

/-- A byte is read as it was written. -/
theorem readChars_escaped (b : UInt8) (t : Bytes) :
    readChars (escaped b ++ t) = (readChars t).map (fun (s, r) => (b :: s, r)) := by
  have hescapes : escapes.all (fun p => p.2 ≠ 117 ∧ (escapes.map Prod.swap).lookup p.2 = some p.1) = true := by
    decide
  have hhex : ∀ n < 16, hexValue (hexDigit n) = n := by decide
  rw [escaped]
  cases hlookup : escapes.lookup b with
  | some e =>
      obtain ⟨l₁, l₂, hsplit, _⟩ := List.lookup_eq_some_iff.mp hlookup
      have hmem : (b, e) ∈ escapes := by
        rw [hsplit]
        exact List.mem_append_right l₁ List.mem_cons_self
      obtain ⟨hne, hback⟩ := of_decide_eq_true (List.all_eq_true.mp hescapes (b, e) hmem)
      exact readChars_escape hne hback t
  | none =>
      by_cases hcontrol : b < 32
      · have hlt : b.toNat < 32 := UInt8.lt_iff_toNat_lt.mp hcontrol
        have hbyte : UInt8.ofNat (b.toNat / 16 * 16 + b.toNat % 16) = b := by
          rw [Nat.div_add_mod']
          exact UInt8.ofNat_toNat
        simp only [if_pos hcontrol, List.append_assoc]
        show readChars (ascii "\\u00" ++ _ :: _ :: t) = _
        rw [readChars_unicode, hhex _ (by omega), hhex _ (by omega), hbyte]
      · simp only [if_neg hcontrol]
        refine readChars_plain ?_ ?_ t
        · rintro rfl
          cases hlookup
        · rintro rfl
          cases hlookup

/-- A string is read from behind its quotation mark. -/
theorem readChars_quoted (s t : Bytes) : readChars (s.flatMap escaped ++ 34 :: t) = some (s, t) := by
  induction s with
  | nil =>
      rw [List.flatMap_nil, List.nil_append, readChars.eq_def]
      rfl
  | cons b s ih =>
      rw [List.flatMap_cons, List.append_assoc, readChars_escaped, ih]
      rfl

/-! ## Integers -/

/-- An integer begins with a sign or a digit. -/
theorem exists_decimalInt (i : Int) : ∃ b ds, decimalInt i = b :: ds ∧ (b = 45 ∨ IsDigit b) := by
  obtain ⟨b, ds, hds⟩ := List.exists_cons_of_ne_nil (decimal_ne_nil i.natAbs)
  have hb : b ∈ decimal i.natAbs := by
    rw [hds]
    exact List.mem_cons_self
  rw [decimalInt]
  split
  · exact ⟨45, _, rfl, Or.inl rfl⟩
  · exact ⟨b, ds, hds, Or.inr (isDigit_of_mem_decimal hb)⟩

theorem readDigits_decimal (n : Nat) {t : Bytes} (ht : ∀ b ∈ t.head?, ¬ IsDigit b) :
    readDigits (decimal n ++ t) = (n, t) := by
  have hdigits : ∀ b ∈ decimal n, decide (IsDigit b) = true := fun b hb =>
    decide_eq_true (isDigit_of_mem_decimal hb)
  have htake : t.takeWhile (fun b => IsDigit b) = [] ∧ t.dropWhile (fun b => IsDigit b) = t := by
    cases t with
    | nil => exact ⟨rfl, rfl⟩
    | cons b t =>
        have hb : ¬ decide (IsDigit b) = true := by
          rw [decide_eq_true_iff]
          exact ht b rfl
        exact ⟨List.takeWhile_cons_of_neg hb, List.dropWhile_cons_of_neg hb⟩
  rw [readDigits, List.takeWhile_append_of_pos hdigits, List.dropWhile_append_of_pos hdigits, htake.1, htake.2,
    List.append_nil, ofDecimal_decimal]

/-- An integer is read up to where its digits end. -/
theorem readInt_decimalInt (i : Int) {t : Bytes} (ht : ∀ b ∈ t.head?, ¬ IsDigit b) :
    readInt (decimalInt i ++ t) = some (i, t) := by
  rw [decimalInt]
  by_cases hneg : i < 0
  · rw [if_pos hneg, List.cons_append, readInt, if_pos rfl, readDigits_decimal _ ht]
    have habs : -((i.natAbs : Int)) = i := by omega
    rw [habs]
  · obtain ⟨b, ds, hds⟩ := List.exists_cons_of_ne_nil (decimal_ne_nil i.natAbs)
    have hb : IsDigit b := isDigit_of_mem_decimal (by rw [hds]; exact List.mem_cons_self)
    have hminus : b ≠ 45 := by
      rintro rfl
      exact absurd hb (by decide)
    have hread := readDigits_decimal i.natAbs ht
    rw [hds, List.cons_append] at hread
    have habs : (i.natAbs : Int) = i := by omega
    rw [if_neg hneg, hds, List.cons_append, readInt, if_neg hminus, if_pos hb, hread, habs]

/-! ## Values -/

/-- Blanks before a text do not matter. -/
theorem skipWs_newline (level : Nat) (t : Bytes) : skipWs (newline level ++ t) = skipWs t := by
  rw [skipWs, List.dropWhile_append_of_pos]
  · rfl
  · intro b hb
    rcases List.mem_cons.mp hb with rfl | hb
    · rfl
    · rw [(List.mem_replicate.mp hb).2]
      rfl

theorem skipWs_cons {b : UInt8} (hb : 32 < b) (t : Bytes) : skipWs (b :: t) = b :: t := by
  apply List.dropWhile_cons_of_neg
  rw [decide_eq_true_iff]
  rintro (rfl | rfl | rfl | rfl)
  all_goals exact absurd hb (by decide)

theorem readValue_blank (fuel : Nat) (t : Bytes) : readValue fuel (32 :: t) = readValue fuel t := by
  cases fuel with
  | zero => rw [readValue, readValue]
  | succ fuel =>
      have hskip : skipWs (32 :: t) = skipWs t := rfl
      simp only [readValue, hskip]

theorem readValue_int (fuel : Nat) (i : Int) {t : Bytes} (ht : ∀ b ∈ t.head?, ¬ IsDigit b) :
    readValue (fuel + 1) (decimalInt i ++ t) = some (.int i, t) := by
  obtain ⟨b, ds, hds, hb⟩ := exists_decimalInt i
  have hread := readInt_decimalInt i ht
  have hclear : 32 < b ∧ b ≠ 34 ∧ b ≠ 123 := by
    rcases hb with rfl | ⟨hlow, hhigh⟩
    · decide
    · refine ⟨UInt8.lt_iff_toNat_lt.mpr ?_, ?_, ?_⟩
      · exact Nat.lt_of_lt_of_le (by decide) hlow
      · rintro rfl
        exact absurd hlow (by decide)
      · rintro rfl
        exact absurd hhigh (by decide)
  obtain ⟨hskip, hquote, hbrace⟩ := hclear
  rw [hds, List.cons_append] at hread ⊢
  rw [readValue, skipWs_cons hskip]
  split
  · next heq => exact absurd (List.cons.inj heq).1 hquote
  · next heq => exact absurd (List.cons.inj heq).1 hbrace
  · rw [hread]
    rfl

/-- A member, from its new line on. -/
theorem styledMembers_cons (level : Nat) (k : Bytes) (v : Json) (ms : List (Bytes × Json)) (t : Bytes) :
    styledMembers level ((k, v) :: ms) ++ t
      = newline (level + 1) ++ 34 :: (k.flatMap escaped ++ 34 :: 32 :: 58 :: 32 :: (styled (level + 1) v ++
          ((if ms.isEmpty then newline level ++ [125] else 44 :: styledMembers level ms) ++ t))) := by
  simp only [styledMembers, styledMember, quoted, List.append_assoc, List.cons_append, List.nil_append]
  rfl

theorem readMembers_styled {level : Nat} {ms : List (Bytes × Json)}
    (hms : ∀ m ∈ ms, ∀ fuel t, (∀ b ∈ t.head?, ¬ IsDigit b) →
      (styled (level + 1) m.2 ++ t).length < fuel → readValue fuel (styled (level + 1) m.2 ++ t) = some (m.2, t))
    {fuel : Nat} {t : Bytes} (hfuel : (styledMembers level ms ++ t).length < fuel) :
    readMembers fuel (styledMembers level ms ++ t) = some (ms, t) := by
  induction ms generalizing fuel with
  | nil =>
      obtain ⟨fuel, rfl⟩ := Nat.exists_eq_succ_of_ne_zero (Nat.ne_of_gt (Nat.zero_lt_of_lt hfuel))
      rw [styledMembers, List.singleton_append, readMembers, skipWs_cons (by decide)]
      rfl
  | cons m ms ih =>
      obtain ⟨fuel, rfl⟩ := Nat.exists_eq_succ_of_ne_zero (Nat.ne_of_gt (Nat.zero_lt_of_lt hfuel))
      obtain ⟨k, v⟩ := m
      obtain ⟨hm, hms⟩ := List.forall_mem_cons.mp hms
      rw [styledMembers_cons] at hfuel ⊢
      simp only [List.length_append, List.length_cons] at hfuel
      rw [readMembers, skipWs_newline, skipWs_cons (by decide)]
      simp only [readChars_quoted, Option.bind_eq_bind, Option.bind_some]
      have hcolon : ∀ u, colonBefore (32 :: 58 :: u) = some u := fun _ => rfl
      simp only [hcolon, Option.bind_some, readValue_blank]
      cases ms with
      | nil =>
          have hrest : ∀ b ∈ (newline level ++ [125] ++ t).head?, ¬ IsDigit b := by
            rintro b ⟨⟩
            decide
          simp only [List.isEmpty_nil, if_true, List.length_append] at hfuel ⊢
          rw [hm fuel _ hrest (by simp only [List.length_append]; omega), Option.bind_some, List.append_assoc]
          simp only [skipWs_newline]
          rfl
      | cons m' ms =>
          have hrest : ∀ b ∈ (44 :: styledMembers level (m' :: ms) ++ t).head?, ¬ IsDigit b := by
            rintro b ⟨⟩
            decide
          simp only [List.isEmpty_cons, Bool.false_eq_true, if_false, List.length_cons] at hfuel ⊢
          rw [hm fuel _ hrest (by simp only [List.length_append, List.length_cons]; omega), Option.bind_some,
            List.cons_append, skipWs_cons (by decide)]
          simp only
          rw [ih hms (by simp only [List.length_append]; omega)]
          rfl

/-- **What is written is read.** -/
theorem readValue_styled {v : Json} (hv : v.Plain) {level fuel : Nat} {t : Bytes}
    (ht : ∀ b ∈ t.head?, ¬ IsDigit b) (hfuel : (styled level v ++ t).length < fuel) :
    readValue fuel (styled level v ++ t) = some (v, t) := by
  obtain ⟨fuel, rfl⟩ := Nat.exists_eq_succ_of_ne_zero (Nat.ne_of_gt (Nat.zero_lt_of_lt hfuel))
  induction hv generalizing level fuel t with
  | int _ => exact readValue_int fuel _ ht
  | @string s _ =>
      have hopen : styled level (.string s) ++ t = 34 :: (s.flatMap escaped ++ 34 :: t) := by
        simp [styled, quoted]
      rw [hopen, readValue, skipWs_cons (by decide)]
      simp only [readChars_quoted]
      rfl
  | @object ms _ _ _ ih =>
      have hopen : styled level (.object ms) ++ t = 123 :: (styledMembers level ms ++ t) := by
        rw [styled]
        rfl
      rw [hopen] at hfuel ⊢
      rw [readValue, skipWs_cons (by decide)]
      simp only
      rw [readMembers_styled ?_ (Nat.lt_of_succ_lt_succ hfuel)]
      · rfl
      · intro m hm fuel t ht hlt
        obtain ⟨fuel, rfl⟩ := Nat.exists_eq_succ_of_ne_zero (Nat.ne_of_gt (Nat.zero_lt_of_lt hlt))
        exact ih m hm ht _ hlt

/-! ## The library -/

/-- Nothing but null is converted into another kind. -/
def asString : Json → Option Bytes
  | .string s => some s
  | .null     => some []
  | _         => none

def asInt : Json → Option Int
  | .int i => if -2 ^ 31 ≤ i ∧ i < 2 ^ 31 then some i else none
  | .null  => some 0
  | _      => none

def asUInt : Json → Option (BitVec 32)
  | .int i => if 0 ≤ i ∧ i < 2 ^ 32 then some (BitVec.ofInt 32 i) else none
  | .null  => some 0
  | _      => none

def library : JsonCpp where
  write v := some (styled 0 v ++ [10])
  parse t :=
    match readValue (t.length + 1) t with
    | some (v, _) => some (true, v)
    | none        => some (false, .null)
  asString := asString
  asInt := asInt
  asUInt := asUInt

theorem asUInt_toNat (w : BitVec 32) : asUInt (.int w.toNat) = some w := by
  have hfits : (0 : Int) ≤ w.toNat ∧ (w.toNat : Int) < 2 ^ 32 := by
    have hlt := w.isLt
    omega
  rw [asUInt, if_pos hfits, BitVec.ofInt_natCast, BitVec.ofNat_toNat, BitVec.setWidth_eq]

/-- **The library is faithful.** -/
theorem library_faithful : library.Faithful where
  parse_write v hv := by
    have hend : ∀ b ∈ [(10 : UInt8)].head?, ¬ IsDigit b := by
      rintro b ⟨⟩
      decide
    refine ⟨_, rfl, ?_⟩
    simp only [library, readValue_styled hv hend (Nat.lt_succ_self _)]
  asString_string s _ := rfl
  asInt_int i hlow hhigh := by
    show asInt (.int i) = some i
    rw [asInt, if_pos ⟨hlow, hhigh⟩]
  asUInt_int w := by
    have hasUInt : library.asUInt = asUInt := rfl
    rw [hasUInt, asUInt_toNat]

/-! ## No zero byte

`Post` hands a text over by its `c_str()`. What the library writes gets there whole. -/

theorem escaped_nonzero (b : UInt8) : 0 ∉ escaped b := by
  have hescapes : escapes.all (fun p => p.2 ≠ 0) = true := by decide
  have hhex : ∀ n < 16, hexDigit n ≠ 0 := by decide
  rw [escaped]
  cases hlookup : escapes.lookup b with
  | some e =>
      obtain ⟨l₁, l₂, hsplit, _⟩ := List.lookup_eq_some_iff.mp hlookup
      have hmem : (b, e) ∈ escapes := by
        rw [hsplit]
        exact List.mem_append_right l₁ List.mem_cons_self
      have hne : e ≠ 0 := of_decide_eq_true (List.all_eq_true.mp hescapes (b, e) hmem)
      simpa using hne.symm
  | none =>
      by_cases hcontrol : b < 32
      · have hlt : b.toNat < 32 := UInt8.lt_iff_toNat_lt.mp hcontrol
        have hopening : 0 ∉ ascii "\\u00" := by decide
        have hhigh := hhex (b.toNat / 16) (by omega)
        have hlow := hhex (b.toNat % 16) (by omega)
        simp only [if_pos hcontrol, List.mem_append, List.mem_cons, List.not_mem_nil, or_false, not_or]
        exact ⟨hopening, hhigh.symm, hlow.symm⟩
      · simp only [if_neg hcontrol, List.mem_singleton]
        rintro rfl
        exact hcontrol (by decide)

theorem quoted_nonzero (s : Bytes) : 0 ∉ quoted s := by
  have hchars : 0 ∉ s.flatMap escaped := by
    intro h
    obtain ⟨b, _, hb⟩ := List.mem_flatMap.mp h
    exact escaped_nonzero b hb
  simp [quoted, hchars]

theorem newline_nonzero (level : Nat) : 0 ∉ newline level := by
  simp [newline]

theorem decimalInt_nonzero (i : Int) : 0 ∉ decimalInt i := by
  have hdigits : 0 ∉ decimal i.natAbs := not_mem_decimal _ (by decide)
  rw [decimalInt]
  split
  · simp [hdigits]
  · exact hdigits

theorem styledMembers_nonzero {ms : List (Bytes × Json)} {level : Nat}
    (h : ∀ m ∈ ms, ∀ level, 0 ∉ styled level m.2) : 0 ∉ styledMembers level ms := by
  induction ms with
  | nil => simp [styledMembers]
  | cons m ms ih =>
      obtain ⟨hm, hms⟩ := List.forall_mem_cons.mp h
      obtain ⟨k, v⟩ := m
      have hcolon : 0 ∉ ascii " : " := by decide
      have hmember : 0 ∉ styledMember (level + 1) (k, v) := by
        simp [styledMember, newline_nonzero, quoted_nonzero, hcolon, hm]
      rw [styledMembers, List.mem_append, not_or]
      refine ⟨hmember, ?_⟩
      split
      · simp [newline_nonzero]
      · simp [ih hms]

theorem styled_nonzero {v : Json} (hv : v.Plain) (level : Nat) : 0 ∉ styled level v := by
  induction hv generalizing level with
  | @int i _ =>
      rw [styled]
      exact decimalInt_nonzero i
  | @string s _ =>
      rw [styled]
      exact quoted_nonzero s
  | @object ms _ _ _ ih =>
      have hms : 0 ∉ styledMembers level ms := styledMembers_nonzero ih
      rw [styled]
      simp [hms]

end StyledJson

end BServer
