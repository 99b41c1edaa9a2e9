import Mathlib.Data.List.TakeWhile

/-!
# `Base.JsonText` — what a JSON text denotes

The grammar of RFC 8259, as relations between what is left of a text before a production and what is left after
it. `Chars` reads the rest of a string, `Reads` a value. A text `Denotes` the value that is read from all of it.
Texts are lists of Unicode characters; `utf8` says which bytes they travel as.

What the grammar is used for here is text that was pasted between quotation marks without escaping. Reading
takes at least one character for each that it yields, and one exactly where it yields that character itself
(`Chars.plain_or_longer`). So a pasted string is read back as itself exactly where it had nothing to escape
(`chars_pasted_iff`).
-/

namespace JsonText

/-! ## UTF-8 -/

/-- The bytes of a text. -/
def utf8 (t : List Char) : List UInt8 := t.flatMap String.utf8EncodeChar

theorem utf8_append (t u : List Char) : utf8 (t ++ u) = utf8 t ++ utf8 u := List.flatMap_append

/-- The bytes determine the text. -/
theorem utf8_injective {t u : List Char} (h : utf8 t = utf8 u) : t = u := by
  have henc : t.utf8Encode = u.utf8Encode := congrArg List.toByteArray h
  have hdec := congrArg ByteArray.utf8Decode? henc
  rw [List.utf8Decode?_utf8Encode, List.utf8Decode?_utf8Encode] at hdec
  exact congrArg Array.toList (Option.some.inj hdec)

/-! ## Grammar -/

/-- A JSON value. A number is kept as it is written. -/
inductive Value where
  | null
  | boolean (b : Bool)
  | number (literal : List Char)
  | string (s : List Char)
  | array (vs : List Value)
  | object (ms : List (List Char × Value))

/-- `ws`. -/
def isWs (c : Char) : Bool := c = ' ' || c = '\t' || c = '\n' || c = '\r'

def skipWs (t : List Char) : List Char := t.dropWhile isWs

/-- `unescaped`. -/
abbrev Unescaped (c : Char) : Prop := 32 ≤ c.toNat ∧ c ≠ '"' ∧ c ≠ '\\'

theorem unescaped_of_all {s : List Char} (h : s.all (fun c => Unescaped c) = true) : ∀ c ∈ s, Unescaped c := by
  intro c hc
  exact of_decide_eq_true (List.all_eq_true.mp h c hc)

/-- The character that stands for another one behind a backslash. -/
def escape : Char → Option Char
  | '"'  => some '"'
  | '\\' => some '\\'
  | '/'  => some '/'
  | 'b'  => some (Char.ofNat 8)
  | 'f'  => some (Char.ofNat 12)
  | 'n'  => some '\n'
  | 'r'  => some '\r'
  | 't'  => some '\t'
  | _    => none

/-- `HEXDIG`. -/
def hexDigit (c : Char) : Option Nat :=
  if '0' ≤ c ∧ c ≤ '9' then some (c.toNat - 48)
  else if 'A' ≤ c ∧ c ≤ 'F' then some (c.toNat - 55)
  else if 'a' ≤ c ∧ c ≤ 'f' then some (c.toNat - 87)
  else none

/-- The code unit behind `\u`. -/
def codeUnit (a b c d : Char) : Option Nat := do
  return (((← hexDigit a) * 16 + (← hexDigit b)) * 16 + (← hexDigit c)) * 16 + (← hexDigit d)

/-- `Chars s t r`: behind an opening quotation mark, `t` reads as the string `s` and leaves `r`. Half of a
    surrogate pair is no character, and a string with one denotes nothing. -/
inductive Chars : List Char → List Char → List Char → Prop where
  | close (r : List Char) : Chars [] ('"' :: r) r
  | plain {c : Char} {s t r : List Char} (hc : Unescaped c) (h : Chars s t r) : Chars (c :: s) (c :: t) r
  | escaped {c e : Char} {s t r : List Char} (he : escape e = some c) (h : Chars s t r) :
      Chars (c :: s) ('\\' :: e :: t) r
  | unit {a b c d : Char} {n : Nat} {s t r : List Char} (hn : codeUnit a b c d = some n)
      (hvalid : n.isValidChar) (h : Chars s t r) :
      Chars (Char.ofNat n :: s) ('\\' :: 'u' :: a :: b :: c :: d :: t) r
  | pair {a b c d a' b' c' d' : Char} {n n' : Nat} {s t r : List Char} (hn : codeUnit a b c d = some n)
      (hn' : codeUnit a' b' c' d' = some n') (hhigh : 0xD800 ≤ n ∧ n < 0xDC00)
      (hlow : 0xDC00 ≤ n' ∧ n' < 0xE000) (h : Chars s t r) :
      Chars (Char.ofNat (0x10000 + (n - 0xD800) * 0x400 + (n' - 0xDC00)) :: s)
        ('\\' :: 'u' :: a :: b :: c :: d :: '\\' :: 'u' :: a' :: b' :: c' :: d' :: t) r

/-- `1*DIGIT`. -/
def Digits (t : List Char) : Prop := t ≠ [] ∧ ∀ c ∈ t, c.isDigit = true

/-- `number`. -/
def IsNumber (literal : List Char) : Prop :=
  ∃ minus int frac exp, literal = minus ++ (int ++ (frac ++ exp)) ∧
    (minus = [] ∨ minus = ['-']) ∧
    (int = ['0'] ∨ Digits int ∧ int.head? ≠ some '0') ∧
    (frac = [] ∨ ∃ ds, frac = '.' :: ds ∧ Digits ds) ∧
    (exp = [] ∨ ∃ e sign ds, exp = e :: (sign ++ ds) ∧ (e = 'e' ∨ e = 'E') ∧
      (sign = [] ∨ sign = ['+'] ∨ sign = ['-']) ∧ Digits ds)

mutual

/-- `Reads v t r`: `t` reads as the value `v` and leaves `r`. -/
inductive Reads : Value → List Char → List Char → Prop where
  | null (r : List Char) : Reads .null ('n' :: 'u' :: 'l' :: 'l' :: r) r
  | no (r : List Char) : Reads (.boolean false) ('f' :: 'a' :: 'l' :: 's' :: 'e' :: r) r
  | yes (r : List Char) : Reads (.boolean true) ('t' :: 'r' :: 'u' :: 'e' :: r) r
  | number {literal t r : List Char} (hl : IsNumber literal) (ht : t = literal ++ r) :
      Reads (.number literal) t r
  | string {s t r : List Char} (h : Chars s t r) : Reads (.string s) ('"' :: t) r
  | emptyArray {t r : List Char} (h : skipWs t = ']' :: r) : Reads (.array []) ('[' :: t) r
  | array {vs : List Value} {t r : List Char} (h : ReadsElements vs (skipWs t) r) :
      Reads (.array vs) ('[' :: t) r
  | emptyObject {t r : List Char} (h : skipWs t = '}' :: r) : Reads (.object []) ('{' :: t) r
  | object {ms : List (List Char × Value)} {t r : List Char} (h : ReadsMembers ms (skipWs t) r) :
      Reads (.object ms) ('{' :: t) r

/-- The elements of an array, and the bracket behind them. -/
inductive ReadsElements : List Value → List Char → List Char → Prop where
  | last {v : Value} {t u r : List Char} (h : Reads v t u) (hr : skipWs u = ']' :: r) :
      ReadsElements [v] t r
  | more {v : Value} {vs : List Value} {t u u' r : List Char} (h : Reads v t u) (hu : skipWs u = ',' :: u')
      (hs : ReadsElements vs (skipWs u') r) : ReadsElements (v :: vs) t r

/-- The members of an object, and the brace behind them. -/
inductive ReadsMembers : List (List Char × Value) → List Char → List Char → Prop where
  | last {n t u u' x r : List Char} {v : Value} (hn : Chars n t u) (hu : skipWs u = ':' :: u')
      (h : Reads v (skipWs u') x) (hr : skipWs x = '}' :: r) : ReadsMembers [(n, v)] ('"' :: t) r
  | more {n t u u' x x' r : List Char} {v : Value} {ms : List (List Char × Value)} (hn : Chars n t u)
      (hu : skipWs u = ':' :: u') (h : Reads v (skipWs u') x) (hx : skipWs x = ',' :: x')
      (hs : ReadsMembers ms (skipWs x') r) : ReadsMembers ((n, v) :: ms) ('"' :: t) r

end

/-- **What a JSON text denotes**: the value that is read from all of it. -/
def Denotes (t : List Char) (v : Value) : Prop := ∃ r, Reads v (skipWs t) r ∧ skipWs r = []

/-- The bytes of a text with nothing to escape in it. -/
def Verbatim (b : List UInt8) : Prop := ∃ s, utf8 s = b ∧ ∀ c ∈ s, Unescaped c

/-- The text behind verbatim bytes has nothing to escape. -/
theorem verbatim_utf8 {s : List Char} : Verbatim (utf8 s) ↔ ∀ c ∈ s, Unescaped c := by
  constructor
  · rintro ⟨t, ht, hall⟩
    rwa [← utf8_injective ht]
  · intro hall
    exact ⟨s, rfl, hall⟩

/-! ## Strings -/

/-- Reading takes a character at least for each that it yields. -/
theorem Chars.length_le {s t r : List Char} (h : Chars s t r) : s.length + 1 + r.length ≤ t.length := by
  induction h with
  | close r =>
      simp only [List.length_cons, List.length_nil]
      omega
  | plain _ _ ih =>
      simp only [List.length_cons]
      omega
  | escaped _ _ ih =>
      simp only [List.length_cons]
      omega
  | unit _ _ _ ih =>
      simp only [List.length_cons]
      omega
  | pair _ _ _ _ _ ih =>
      simp only [List.length_cons]
      omega

/-- A string is read from its own characters, or from more of them. -/
theorem Chars.plain_or_longer {s t r : List Char} (h : Chars s t r) :
    (t = s ++ '"' :: r ∧ ∀ c ∈ s, Unescaped c) ∨ s.length + 1 + r.length < t.length := by
  induction h with
  | close r => exact Or.inl ⟨rfl, fun _ hc => absurd hc List.not_mem_nil⟩
  | plain hc h ih =>
      rcases ih with ⟨rfl, hall⟩ | hlonger
      · exact Or.inl ⟨rfl, List.forall_mem_cons.mpr ⟨hc, hall⟩⟩
      · right
        simp only [List.length_cons]
        omega
  -- an escape is longer than what it stands for
  | escaped _ h _ =>
      right
      have hle := h.length_le
      simp only [List.length_cons]
      omega
  | unit _ _ h _ =>
      right
      have hle := h.length_le
      simp only [List.length_cons]
      omega
  | pair _ _ _ _ h _ =>
      right
      have hle := h.length_le
      simp only [List.length_cons]
      omega

/-- Characters that need no escape are read as they stand. -/
theorem chars_literal {s : List Char} (hs : ∀ c ∈ s, Unescaped c) (r : List Char) :
    Chars s (s ++ '"' :: r) r := by
  induction s with
  | nil => exact .close r
  | cons c s ih =>
      obtain ⟨hc, hs⟩ := List.forall_mem_cons.mp hs
      exact .plain hc (ih hs)

/-- And in no other way. -/
theorem chars_literal_iff {l s t r : List Char} (hl : ∀ c ∈ l, Unescaped c) :
    Chars s (l ++ '"' :: t) r ↔ s = l ∧ r = t := by
  constructor
  · intro h
    induction l generalizing s with
    | nil =>
        cases h with
        | close => exact ⟨rfl, rfl⟩
        | plain hc _ => exact absurd rfl hc.2.1
    | cons c l ih =>
        obtain ⟨hc, hl⟩ := List.forall_mem_cons.mp hl
        generalize htext : (c :: l) ++ '"' :: t = text at h
        cases h with
        | close => exact absurd (List.cons.inj htext).1 hc.2.1
        | plain _ h =>
            obtain ⟨rfl, rfl⟩ := List.cons.inj htext
            obtain ⟨rfl, rfl⟩ := ih hl h
            exact ⟨rfl, rfl⟩
        | escaped _ _ => exact absurd (List.cons.inj htext).1 hc.2.2
        | unit _ _ _ => exact absurd (List.cons.inj htext).1 hc.2.2
        | pair _ _ _ _ _ => exact absurd (List.cons.inj htext).1 hc.2.2
  · rintro ⟨rfl, rfl⟩
    exact chars_literal hl r

/-- **Pasting without escaping.** A string between quotation marks is read back, with at least as much left over
    as was put behind it, exactly if it has nothing to escape. -/
theorem chars_pasted_iff {s t : List Char} :
    (∃ r, t.length ≤ r.length ∧ Chars s (s ++ '"' :: t) r) ↔ ∀ c ∈ s, Unescaped c := by
  constructor
  · rintro ⟨r, hr, h⟩
    rcases h.plain_or_longer with ⟨_, hall⟩ | hlonger
    · exact hall
    · simp only [List.length_append, List.length_cons] at hlonger
      omega
  · intro hall
    exact ⟨t, Nat.le_refl _, chars_literal hall t⟩

/-! ## Values that begin with a known character -/

/-- A number begins with a sign or a digit. -/
theorem IsNumber.head {l : List Char} (h : IsNumber l) :
    ∃ c cs, l = c :: cs ∧ (c = '-' ∨ c.isDigit = true) := by
  obtain ⟨minus, int, frac, exp, rfl, rfl | rfl, hint, _⟩ := h
  · rcases hint with rfl | ⟨⟨hne, hdigits⟩, _⟩
    · exact ⟨'0', _, rfl, Or.inr rfl⟩
    · obtain ⟨c, cs, rfl⟩ := List.exists_cons_of_ne_nil hne
      exact ⟨c, _, rfl, Or.inr (hdigits c List.mem_cons_self)⟩
  · exact ⟨'-', _, rfl, Or.inl rfl⟩

theorem reads_string_iff {v : Value} {t r : List Char} :
    Reads v ('"' :: t) r ↔ ∃ s, v = .string s ∧ Chars s t r := by
  constructor
  · intro h
    cases h with
    | string h => exact ⟨_, rfl, h⟩
    | number hl ht =>
        obtain ⟨c, cs, rfl, hc⟩ := hl.head
        obtain ⟨rfl, _⟩ := List.cons.inj ht
        rcases hc with hc | hc
        · exact absurd hc (by decide)
        · exact absurd hc (by decide)
  · rintro ⟨s, rfl, h⟩
    exact .string h

theorem skipWs_cons {c : Char} (h : isWs c = false) (t : List Char) : skipWs (c :: t) = c :: t :=
  List.dropWhile_cons_of_neg (by rw [h]; decide)

/-- A text that is read as an object from a quotation mark on is read member by member. -/
theorem denotes_object_iff {ms : List (List Char × Value)} {t : List Char} :
    Denotes ('{' :: '"' :: t) (.object ms) ↔ ∃ r, ReadsMembers ms ('"' :: t) r ∧ skipWs r = [] := by
  rw [Denotes, skipWs_cons (by decide)]
  refine exists_congr fun r => and_congr_left fun _ => ?_
  constructor
  · intro h
    cases h with
    | object h => rwa [skipWs_cons (by decide)] at h
    | emptyObject h =>
        rw [skipWs_cons (by decide)] at h
        exact absurd (List.cons.inj h).1 (by decide)
  · intro h
    apply Reads.object
    rwa [skipWs_cons (by decide)]

/-! ## Objects put together by hand -/

section Members

variable {n t r : List Char} {ms : List (List Char × Value)}

/-- A member with a name that needs no escape and a string for its value. -/
theorem readsMembers_string_iff (hn : ∀ c ∈ n, Unescaped c) :
    ReadsMembers ms ('"' :: (n ++ '"' :: ':' :: '"' :: t)) r ↔
      ∃ s x, Chars s t x ∧ ((ms = [(n, .string s)] ∧ skipWs x = '}' :: r) ∨
        ∃ ms' x', ms = (n, .string s) :: ms' ∧ skipWs x = ',' :: x' ∧ ReadsMembers ms' (skipWs x') r) := by
  have hname : ∀ {n' u u' v x}, Chars n' (n ++ '"' :: ':' :: '"' :: t) u → skipWs u = ':' :: u' →
      Reads v (skipWs u') x → n' = n ∧ ∃ s, v = .string s ∧ Chars s t x := by
    intro n' u u' v x hchars hu hv
    obtain ⟨rfl, rfl⟩ := (chars_literal_iff hn).mp hchars
    rw [skipWs_cons (by decide)] at hu
    obtain ⟨_, rfl⟩ := List.cons.inj hu
    rw [skipWs_cons (by decide)] at hv
    exact ⟨rfl, reads_string_iff.mp hv⟩
  constructor
  · intro h
    cases h with
    | last hchars hu hv hr =>
        obtain ⟨rfl, s, rfl, hs⟩ := hname hchars hu hv
        exact ⟨s, _, hs, Or.inl ⟨rfl, hr⟩⟩
    | more hchars hu hv hx hms =>
        obtain ⟨rfl, s, rfl, hs⟩ := hname hchars hu hv
        exact ⟨s, _, hs, Or.inr ⟨_, _, rfl, hx, hms⟩⟩
  · have hchars := chars_literal hn (':' :: '"' :: t)
    have hcolon : skipWs (':' :: '"' :: t) = ':' :: '"' :: t := skipWs_cons (by decide) _
    have hquote : skipWs ('"' :: t) = '"' :: t := skipWs_cons (by decide) _
    rintro ⟨s, x, hs, ⟨rfl, hx⟩ | ⟨ms', x', rfl, hx, hms⟩⟩
    · exact .last hchars hcolon (by rw [hquote]; exact .string hs) hx
    · exact .more hchars hcolon (by rw [hquote]; exact .string hs) hx hms

/-- A member with a name and a string that need no escape, and another one behind it. -/
theorem readsMembers_literal_iff {l : List Char} (hn : ∀ c ∈ n, Unescaped c) (hl : ∀ c ∈ l, Unescaped c) :
    ReadsMembers ms ('"' :: (n ++ '"' :: ':' :: '"' :: (l ++ '"' :: ',' :: t))) r ↔
      ∃ ms', ms = (n, .string l) :: ms' ∧ ReadsMembers ms' (skipWs t) r := by
  have hcomma : skipWs (',' :: t) = ',' :: t := skipWs_cons (by decide) t
  rw [readsMembers_string_iff hn]
  constructor
  · rintro ⟨s, x, hs, hrest⟩
    obtain ⟨rfl, rfl⟩ := (chars_literal_iff hl).mp hs
    simp only [hcomma] at hrest
    rcases hrest with ⟨_, hx⟩ | ⟨ms', x', rfl, hx, hms⟩
    · exact absurd (List.cons.inj hx).1 (by decide)
    · obtain ⟨_, rfl⟩ := List.cons.inj hx
      exact ⟨ms', rfl, hms⟩
  · rintro ⟨ms', rfl, hms⟩
    exact ⟨l, ',' :: t, chars_literal hl _, Or.inr ⟨ms', t, rfl, hcomma, hms⟩⟩

/-- The one member of that name has that value. -/
def HasMember (ms : List (List Char × Value)) (n : List Char) (v : Value) : Prop :=
  ∀ v', (n, v') ∈ ms ↔ v' = v

/-- **A last member that was pasted.** If its value is read back, the string had nothing to escape. -/
theorem unescaped_of_lastMember {s : List Char} (hn : ∀ c ∈ n, Unescaped c)
    (h : ReadsMembers ms ('"' :: (n ++ '"' :: ':' :: '"' :: (s ++ '"' :: ['}']))) r)
    (hmember : HasMember ms n (.string s)) : ∀ c ∈ s, Unescaped c := by
  obtain ⟨s', x, hs, hrest⟩ := (readsMembers_string_iff hn).mp h
  -- it is the member read first, and something was left behind it
  have hboth : (n, .string s') ∈ ms ∧ x ≠ [] := by
    rcases hrest with ⟨rfl, hx⟩ | ⟨ms', x', rfl, hx, _⟩
    · exact ⟨List.mem_cons_self, fun hnil => by rw [hnil] at hx; cases hx⟩
    · exact ⟨List.mem_cons_self, fun hnil => by rw [hnil] at hx; cases hx⟩
  obtain ⟨hmem, hne⟩ := hboth
  obtain rfl := Value.string.inj ((hmember _).mp hmem)
  exact (chars_pasted_iff (t := ['}'])).mp ⟨x, List.length_pos_iff.mpr hne, hs⟩

/-- And one that had nothing to escape is read back. -/
theorem readsMembers_last {s : List Char} (hn : ∀ c ∈ n, Unescaped c) (hs : ∀ c ∈ s, Unescaped c) :
    ReadsMembers [(n, .string s)] ('"' :: (n ++ '"' :: ':' :: '"' :: (s ++ '"' :: ['}']))) [] :=
  (readsMembers_string_iff hn).mpr ⟨s, ['}'], chars_literal hs _, Or.inl ⟨rfl, rfl⟩⟩

end Members

end JsonText
