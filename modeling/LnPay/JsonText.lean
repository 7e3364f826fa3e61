/-
# Texts of values

What one program writes as JSON another reads.  `JsonCodec` is a way to write values of a type and to
read them back from the front of a text; its law is that what was written comes back, whatever stands
behind it.  Texts, numbers, pairs and lists of what can be written can be written.

Numbers end where another character begins, so what stands behind must not be part of a number
(`Stops`); the brackets, commas and colons of JSON are not.
-/
import Mathlib.Data.Rat.Defs
import Mathlib.Tactic.Common

namespace LnPay

/-! ## A text between quotes -/

/-- `QuoteJSONString`, one character; a text has no lone surrogates. -/
def escapeChar (c : Char) : List Char :=
  if c = '"' then ['\\', '"']
  else if c = '\\' then ['\\', '\\']
  else if c = '\x08' then ['\\', 'b']
  else if c = '\x0c' then ['\\', 'f']
  else if c = '\n' then ['\\', 'n']
  else if c = '\r' then ['\\', 'r']
  else if c = '\t' then ['\\', 't']
  else if c.toNat < 32 then
    ['\\', 'u', '0', '0', Nat.digitChar (c.toNat / 16), Nat.digitChar (c.toNat % 16)]
  else [c]

/-- The value of a hex digit. -/
def digitValue (c : Char) : ℕ := if c.isDigit then c.toNat - 48 else c.toNat - 87

/-- The first character of an escaped text, and the rest. -/
def readEscaped : List Char → Option (Char × List Char)
  | '\\' :: 'u' :: '0' :: '0' :: a :: b :: rest =>
    some (Char.ofNat (16 * digitValue a + digitValue b), rest)
  | '\\' :: 'b' :: rest => some ('\x08', rest)
  | '\\' :: 'f' :: rest => some ('\x0c', rest)
  | '\\' :: 'n' :: rest => some ('\n', rest)
  | '\\' :: 'r' :: rest => some ('\r', rest)
  | '\\' :: 't' :: rest => some ('\t', rest)
  | '\\' :: c :: rest => some (c, rest)
  | c :: rest => some (c, rest)
  | [] => none

theorem digitValue_digitChar : ∀ n < 32,
    16 * digitValue (Nat.digitChar (n / 16)) + digitValue (Nat.digitChar (n % 16)) = n := by
  decide

theorem digitChar_ne_brace : ∀ n < 32,
    Nat.digitChar (n / 16) ≠ '{' ∧ Nat.digitChar (n % 16) ≠ '{' := by
  decide

theorem readEscaped_of_ne {c : Char} (hc : c ≠ '\\') (rest : List Char) :
    readEscaped (c :: rest) = some (c, rest) := by
  unfold readEscaped
  split <;> simp_all

/-- The cases of `escapeChar`. -/
theorem escapeChar_cases (c : Char) : (escapeChar c = [c] ∧ c ≠ '"' ∧ c ≠ '\\') ∨
    ∃ p, escapeChar c = '\\' :: p ∧ '{' ∉ p := by
  unfold escapeChar
  repeat' split
  all_goals first
    | exact .inr ⟨_, rfl, by decide⟩
    | skip
  · rename_i hlt
    obtain ⟨h₁, h₂⟩ := digitChar_ne_brace c.toNat hlt
    refine .inr ⟨_, rfl, ?_⟩
    simp [h₁.symm, h₂.symm]
  · exact .inl ⟨rfl, ‹_›, ‹_›⟩

theorem readEscaped_escapeChar (c : Char) (rest : List Char) :
    readEscaped (escapeChar c ++ rest) = some (c, rest) := by
  unfold escapeChar
  iterate 7
    split
    · rename_i h
      rw [h]
      rfl
  split
  · rename_i hlt
    show some (Char.ofNat _, rest) = _
    rw [digitValue_digitChar c.toNat hlt, Char.ofNat_toNat]
  · exact readEscaped_of_ne ‹_› rest

/-- An escaped character does not begin with a quote. -/
theorem head_escapeChar (c : Char) : ∃ d cs, escapeChar c = d :: cs ∧ d ≠ '"' := by
  obtain ⟨hc, hne, -⟩ | ⟨p, hc, -⟩ := escapeChar_cases c
  · exact ⟨c, [], hc, hne⟩
  · exact ⟨'\\', p, hc, by decide⟩

/-- What stands before the closing quote, and what behind it; with fuel. -/
def readQuoted : ℕ → List Char → Option (List Char × List Char)
  | 0, _ => none
  | _ + 1, '"' :: rest => some ([], rest)
  | n + 1, cs =>
    (readEscaped cs).bind fun first => (readQuoted n first.2).map fun more =>
      (first.1 :: more.1, more.2)

/-- With enough fuel a text comes back, by induction on it. -/
theorem readQuoted_flatMap {s : List Char} {n : ℕ} (hn : s.length < n) (rest : List Char) :
    readQuoted n (s.flatMap escapeChar ++ '"' :: rest) = some (s, rest) := by
  induction s generalizing n with
  | nil =>
    obtain ⟨n, rfl⟩ := Nat.exists_eq_succ_of_ne_zero (Nat.ne_of_gt hn)
    rfl
  | cons c s ih =>
    obtain ⟨n, rfl⟩ := Nat.exists_eq_succ_of_ne_zero (Nat.ne_of_gt (Nat.zero_lt_of_lt hn))
    obtain ⟨d, cs, hd, hne⟩ := head_escapeChar c
    have hread : readQuoted (n + 1) (escapeChar c ++ (s.flatMap escapeChar ++ '"' :: rest)) =
        (readEscaped (escapeChar c ++ (s.flatMap escapeChar ++ '"' :: rest))).bind fun first =>
          (readQuoted n first.2).map fun more => (first.1 :: more.1, more.2) := by
      rw [hd, List.cons_append, readQuoted]
      exact fun _ h => hne (List.cons.inj h).1
    rw [List.flatMap_cons, List.append_assoc, hread, readEscaped_escapeChar, Option.bind_some]
    dsimp only
    rw [ih (Nat.lt_of_succ_lt_succ hn), Option.map_some]

/-! ## Codecs -/

/-- The characters of numbers. -/
def isNumberChar (c : Char) : Bool := c.isDigit || c = '-' || c = '/'

/-- A number ends here. -/
def Stops (rest : List Char) : Prop := ∀ c ∈ rest.head?, isNumberChar c = false

theorem stops_nil : Stops [] := by
  rintro c ⟨⟩

theorem stops_cons {c : Char} (h : isNumberChar c = false) (rest : List Char) : Stops (c :: rest) := by
  intro d hd
  obtain rfl := Option.some.inj hd
  exact h

/-- A way to write values and to read them back. -/
structure JsonCodec (α : Type) where
  write : α → List Char
  read : List Char → Option (α × List Char)
  /-- what was written does not look like the end of a list -/
  head_write : ∀ a, ∃ c cs, write a = c :: cs ∧ c ≠ ']' ∧ c ≠ '}'
  read_write : ∀ a rest, Stops rest → read (write a ++ rest) = some (a, rest)

namespace JsonCodec

variable {α β : Type}

/-- A whole text. -/
def stringify (c : JsonCodec α) (a : α) : String := String.ofList (c.write a)

/-- The value of a whole text. -/
def parse (c : JsonCodec α) (s : String) : Option α :=
  ((c.read s.toList).filter fun r => r.2 = []).map Prod.fst

theorem parse_stringify (c : JsonCodec α) (a : α) : c.parse (c.stringify a) = some a := by
  have hread := c.read_write a [] stops_nil
  rw [List.append_nil] at hread
  rw [parse, stringify, String.toList_ofList, hread]
  rfl

/-- An empty text is no value. -/
theorem parse_empty (c : JsonCodec α) (h : c.read [] = none) : c.parse "" = none := by
  have hnil : "".toList = [] := rfl
  rw [parse, hnil, h]
  rfl

/-! ### Texts -/

/-- `JSON.stringify` of a text. -/
def writeText (s : String) : List Char := '"' :: (s.toList.flatMap escapeChar ++ ['"'])

def readText : List Char → Option (String × List Char)
  | '"' :: cs => (readQuoted (cs.length + 1) cs).map fun r => (String.ofList r.1, r.2)
  | _ => none

theorem length_le_flatMap_escapeChar (s : List Char) :
    s.length ≤ (s.flatMap escapeChar).length := by
  induction s with
  | nil => exact Nat.le_refl 0
  | cons c s ih =>
    obtain ⟨d, cs, hd, -⟩ := head_escapeChar c
    rw [List.flatMap_cons, hd, List.length_append, List.length_cons, List.length_cons]
    omega

theorem readText_writeText (s : String) (rest : List Char) :
    readText (writeText s ++ rest) = some (s, rest) := by
  have hlist : writeText s ++ rest = '"' :: (s.toList.flatMap escapeChar ++ '"' :: rest) := by
    simp [writeText]
  have hfuel : s.toList.length < (s.toList.flatMap escapeChar ++ '"' :: rest).length + 1 := by
    have := length_le_flatMap_escapeChar s.toList
    rw [List.length_append]
    omega
  rw [hlist, readText, readQuoted_flatMap hfuel, Option.map_some, String.ofList_toList]

theorem head_writeText (s : String) : ∃ c cs, writeText s = c :: cs ∧ c ≠ ']' ∧ c ≠ '}' :=
  ⟨'"', _, rfl, by decide, by decide⟩

/-- Texts. -/
def text : JsonCodec String where
  write := writeText
  read := readText
  head_write := head_writeText
  read_write s rest _ := readText_writeText s rest

/-! ### Numbers -/

/-- A whole number, in decimal digits. -/
def writeInt (z : ℤ) : List Char :=
  if z < 0 then '-' :: Nat.toDigits 10 z.natAbs else Nat.toDigits 10 z.natAbs

def readNat (cs : List Char) : Option (ℕ × List Char) :=
  if cs.takeWhile Char.isDigit = [] then none
  else some (Nat.ofDigitChars 10 (cs.takeWhile Char.isDigit) 0, cs.dropWhile Char.isDigit)

def readInt : List Char → Option (ℤ × List Char)
  | '-' :: cs => (readNat cs).map fun r => (-(r.1 : ℤ), r.2)
  | cs => (readNat cs).map fun r => ((r.1 : ℤ), r.2)

theorem isDigit_toDigits {n : ℕ} {c : Char} (h : c ∈ Nat.toDigits 10 n) : c.isDigit = true :=
  Nat.isDigit_of_mem_toDigits (by decide) (by decide) h

theorem toDigits_ne_nil (n : ℕ) : Nat.toDigits 10 n ≠ [] := by
  have := Nat.length_toDigits_pos (b := 10) (n := n)
  exact List.ne_nil_of_length_pos this

theorem readNat_toDigits (n : ℕ) {rest : List Char} (h : ∀ c ∈ rest.head?, c.isDigit = false) :
    readNat (Nat.toDigits 10 n ++ rest) = some (n, rest) := by
  have hdigits : ∀ c ∈ Nat.toDigits 10 n, c.isDigit = true := fun c hc => isDigit_toDigits hc
  have htake : rest.takeWhile Char.isDigit = [] := by
    cases rest with
    | nil => rfl
    | cons c cs => exact List.takeWhile_cons_of_neg (by simp [h c rfl])
  have hdrop : rest.dropWhile Char.isDigit = rest := by
    cases rest with
    | nil => rfl
    | cons c cs => exact List.dropWhile_cons_of_neg (by simp [h c rfl])
  rw [readNat, List.takeWhile_append_of_pos hdigits, List.dropWhile_append_of_pos hdigits, htake,
    hdrop, List.append_nil, if_neg (toDigits_ne_nil n), Nat.ofDigitChars_ten_toDigits]

theorem readInt_writeInt (z : ℤ) {rest : List Char} (h : ∀ c ∈ rest.head?, c.isDigit = false) :
    readInt (writeInt z ++ rest) = some (z, rest) := by
  unfold writeInt
  split
  · rename_i hneg
    rw [List.cons_append, readInt, readNat_toDigits _ h, Option.map_some]
    have habs : -(z.natAbs : ℤ) = z := by omega
    rw [habs]
  · rename_i hpos
    obtain ⟨d, ds, hd⟩ := List.exists_cons_of_ne_nil (toDigits_ne_nil z.natAbs)
    have hdigit : d.isDigit = true := isDigit_toDigits (hd ▸ List.mem_cons_self)
    have hread : readInt (Nat.toDigits 10 z.natAbs ++ rest) =
        (readNat (Nat.toDigits 10 z.natAbs ++ rest)).map fun r => ((r.1 : ℤ), r.2) := by
      rw [hd, List.cons_append, readInt]
      rintro cs heq
      rw [(List.cons.inj heq).1] at hdigit
      exact absurd hdigit (by decide)
    rw [hread, readNat_toDigits _ h, Option.map_some]
    have habs : (z.natAbs : ℤ) = z := by omega
    rw [habs]

/-- A number; one that is not whole is written as its two parts. -/
def writeRat (q : ℚ) : List Char :=
  if q.den = 1 then writeInt q.num else writeInt q.num ++ '/' :: Nat.toDigits 10 q.den

def readRat (cs : List Char) : Option (ℚ × List Char) :=
  (readInt cs).bind fun num =>
    match num.2 with
    | '/' :: cs => (readNat cs).map fun den => (mkRat num.1 den.1, den.2)
    | cs => some (num.1, cs)

theorem isDigit_of_stops {rest : List Char} (h : Stops rest) : ∀ c ∈ rest.head?, c.isDigit = false := by
  intro c hc
  have := h c hc
  simp only [isNumberChar, Bool.or_eq_false_iff] at this
  exact this.1.1

theorem readRat_writeRat (q : ℚ) {rest : List Char} (h : Stops rest) :
    readRat (writeRat q ++ rest) = some (q, rest) := by
  unfold writeRat readRat
  split
  · rename_i hden
    rw [readInt_writeInt _ (isDigit_of_stops h), Option.bind_some]
    have hq : ((q.num : ℤ) : ℚ) = q := Rat.den_eq_one_iff q |>.mp hden
    dsimp only
    split
    · exact absurd (h '/' rfl) (by decide)
    · rw [hq]
  · rw [List.append_assoc, readInt_writeInt, Option.bind_some]
    · show (readNat (Nat.toDigits 10 q.den ++ rest)).map (fun den => (mkRat q.num den.1, den.2)) = _
      rw [readNat_toDigits _ (isDigit_of_stops h), Option.map_some]
      dsimp only
      rw [Rat.mkRat_self]
    · rintro c hc
      obtain rfl := Option.some.inj hc
      decide

theorem head_writeInt (z : ℤ) : ∃ c cs, writeInt z = c :: cs ∧ isNumberChar c = true := by
  unfold writeInt
  split
  · exact ⟨'-', _, rfl, by decide⟩
  · obtain ⟨d, ds, hd⟩ := List.exists_cons_of_ne_nil (toDigits_ne_nil z.natAbs)
    have hdigit : d.isDigit = true := isDigit_toDigits (hd ▸ List.mem_cons_self)
    exact ⟨d, ds, hd, by simp [isNumberChar, hdigit]⟩

theorem head_writeRat (q : ℚ) : ∃ c cs, writeRat q = c :: cs ∧ isNumberChar c = true := by
  obtain ⟨c, cs, hc, hnum⟩ := head_writeInt q.num
  unfold writeRat
  split
  · exact ⟨c, cs, hc, hnum⟩
  · exact ⟨c, _, by rw [hc, List.cons_append], hnum⟩

theorem ne_bracket_of_isNumberChar {c : Char} (h : isNumberChar c = true) : c ≠ ']' ∧ c ≠ '}' := by
  constructor
  · rintro rfl
    exact absurd h (by decide)
  · rintro rfl
    exact absurd h (by decide)

theorem head_ne_of_writeRat (q : ℚ) : ∃ c cs, writeRat q = c :: cs ∧ c ≠ ']' ∧ c ≠ '}' := by
  obtain ⟨c, cs, hc, hnum⟩ := head_writeRat q
  exact ⟨c, cs, hc, ne_bracket_of_isNumberChar hnum⟩

/-- Numbers. -/
def rat : JsonCodec ℚ where
  write := writeRat
  read := readRat
  head_write := head_ne_of_writeRat
  read_write q _ h := readRat_writeRat q h

/-! ### Truth values and numbers -/

def writeScalar : Bool ⊕ ℚ → List Char
  | .inl true => ['t', 'r', 'u', 'e']
  | .inl false => ['f', 'a', 'l', 's', 'e']
  | .inr q => writeRat q

def readScalar : List Char → Option ((Bool ⊕ ℚ) × List Char)
  | 't' :: 'r' :: 'u' :: 'e' :: rest => some (.inl true, rest)
  | 'f' :: 'a' :: 'l' :: 's' :: 'e' :: rest => some (.inl false, rest)
  | cs => (readRat cs).map fun r => (.inr r.1, r.2)

theorem readScalar_writeScalar (v : Bool ⊕ ℚ) {rest : List Char} (h : Stops rest) :
    readScalar (writeScalar v ++ rest) = some (v, rest) := by
  rcases v with b | q
  · cases b <;> rfl
  · obtain ⟨c, cs, hc, hnum⟩ := head_writeRat q
    have hread : readScalar (writeRat q ++ rest) =
        (readRat (writeRat q ++ rest)).map fun r => (Sum.inr r.1, r.2) := by
      rw [hc, List.cons_append, readScalar]
      · rintro cs' heq
        rw [(List.cons.inj heq).1] at hnum
        exact absurd hnum (by decide)
      · rintro cs' heq
        rw [(List.cons.inj heq).1] at hnum
        exact absurd hnum (by decide)
    rw [writeScalar, hread, readRat_writeRat q h, Option.map_some]

theorem head_writeScalar (v : Bool ⊕ ℚ) : ∃ c cs, writeScalar v = c :: cs ∧ c ≠ ']' ∧ c ≠ '}' := by
  rcases v with b | q
  · cases b
    · exact ⟨'f', _, rfl, by decide, by decide⟩
    · exact ⟨'t', _, rfl, by decide, by decide⟩
  · exact head_ne_of_writeRat q

/-- Truth values and numbers. -/
def scalar : JsonCodec (Bool ⊕ ℚ) where
  write := writeScalar
  read := readScalar
  head_write := head_writeScalar
  read_write v _ h := readScalar_writeScalar v h

/-! ### Pairs and lists -/

def writePair (c : JsonCodec α) (d : JsonCodec β) (p : α × β) : List Char :=
  c.write p.1 ++ ':' :: d.write p.2

def readPair (c : JsonCodec α) (d : JsonCodec β) (cs : List Char) : Option ((α × β) × List Char) :=
  (c.read cs).bind fun first =>
    match first.2 with
    | ':' :: cs => (d.read cs).map fun second => ((first.1, second.1), second.2)
    | _ => none

theorem head_writePair (c : JsonCodec α) (d : JsonCodec β) (p : α × β) :
    ∃ x xs, writePair c d p = x :: xs ∧ x ≠ ']' ∧ x ≠ '}' := by
  obtain ⟨x, xs, hx, hne⟩ := c.head_write p.1
  exact ⟨x, _, by rw [writePair, hx, List.cons_append], hne⟩

theorem readPair_writePair (c : JsonCodec α) (d : JsonCodec β) (p : α × β) {rest : List Char}
    (h : Stops rest) : readPair c d (writePair c d p ++ rest) = some (p, rest) := by
  have hlist : writePair c d p ++ rest = c.write p.1 ++ ':' :: (d.write p.2 ++ rest) := by
    simp [writePair]
  rw [hlist, readPair, c.read_write p.1 _ (stops_cons (by decide) _), Option.bind_some]
  show (d.read (d.write p.2 ++ rest)).map (fun second => ((p.1, second.1), second.2)) = _
  rw [d.read_write p.2 rest h, Option.map_some]

/-- A key and its value. -/
def pair (c : JsonCodec α) (d : JsonCodec β) : JsonCodec (α × β) where
  write := writePair c d
  read := readPair c d
  head_write := head_writePair c d
  read_write p _ h := readPair_writePair c d p h

/-- The items behind the first one, and the bracket. -/
def writeItems (c : JsonCodec α) (close : Char) : List α → List Char
  | [] => [close]
  | a :: as => ',' :: (c.write a ++ writeItems c close as)

/-- The items from here on, with fuel. -/
def readItems (c : JsonCodec α) (close : Char) : ℕ → List Char → Option (List α × List Char)
  | 0, _ => none
  | n + 1, ',' :: cs =>
    (c.read cs).bind fun first => (readItems c close n first.2).map fun more =>
      (first.1 :: more.1, more.2)
  | _ + 1, x :: rest => if x = close then some ([], rest) else none
  | _ + 1, [] => none

theorem readItems_writeItems (c : JsonCodec α) {close : Char} (hclose : isNumberChar close = false)
    (hcomma : close ≠ ',') (as : List α) {n : ℕ} (hn : as.length < n) (rest : List Char) :
    readItems c close n (writeItems c close as ++ rest) = some (as, rest) := by
  induction as generalizing n with
  | nil =>
    obtain ⟨n, rfl⟩ := Nat.exists_eq_succ_of_ne_zero (Nat.ne_of_gt hn)
    rw [writeItems, List.cons_append, List.nil_append, readItems, if_pos rfl]
    exact hcomma
  | cons a as ih =>
    obtain ⟨n, rfl⟩ := Nat.exists_eq_succ_of_ne_zero (Nat.ne_of_gt (Nat.zero_lt_of_lt hn))
    have hstops : Stops (writeItems c close as ++ rest) := by
      cases as with
      | nil => exact stops_cons hclose _
      | cons b bs => exact stops_cons (by decide) _
    rw [writeItems, List.cons_append, List.append_assoc, readItems, c.read_write a _ hstops,
      Option.bind_some]
    dsimp only
    rw [ih (Nat.lt_of_succ_lt_succ hn), Option.map_some]

/-- A list between two brackets. -/
def writeList (c : JsonCodec α) (first close : Char) : List α → List Char
  | [] => [first, close]
  | a :: as => first :: (c.write a ++ writeItems c close as)

def readList (c : JsonCodec α) (first close : Char) (cs : List Char) :
    Option (List α × List Char) :=
  match cs with
  | x :: y :: rest =>
    if x ≠ first then none
    else if y = close then some ([], rest)
    else readItems c close (cs.length + 1) (',' :: y :: rest)
  | _ => none

theorem length_le_writeItems (c : JsonCodec α) (close : Char) (as : List α) :
    as.length ≤ (writeItems c close as).length := by
  induction as with
  | nil => exact Nat.zero_le _
  | cons a as ih =>
    rw [writeItems, List.length_cons, List.length_cons, List.length_append]
    omega

theorem readList_writeList (c : JsonCodec α) (first : Char) {close : Char}
    (hclose : isNumberChar close = false) (hcomma : close ≠ ',')
    (hhead : ∀ a, ∃ x xs, c.write a = x :: xs ∧ x ≠ close) (as : List α) (rest : List Char) :
    readList c first close (writeList c first close as ++ rest) = some (as, rest) := by
  cases as with
  | nil => simp [writeList, readList]
  | cons a as =>
    obtain ⟨x, xs, hx, hne⟩ := hhead a
    have hitems : ',' :: (c.write a ++ writeItems c close as ++ rest) =
        writeItems c close (a :: as) ++ rest := by
      rw [writeItems, List.cons_append, List.append_assoc]
    have hlen : (a :: as).length <
        (first :: (c.write a ++ writeItems c close as) ++ rest).length + 1 := by
      have := length_le_writeItems c close as
      simp only [List.length_cons, List.length_append, List.cons_append]
      omega
    have hread := readItems_writeItems c hclose hcomma (a :: as) hlen rest
    rw [← hitems] at hread
    rw [writeList]
    rw [hx] at hread ⊢
    simp only [List.cons_append] at hread ⊢
    rw [readList, if_neg (not_not.mpr rfl), if_neg hne]
    exact hread

theorem head_writeList (c : JsonCodec α) {first : Char} (close : Char) (hfirst : first ≠ ']' ∧ first ≠ '}')
    (as : List α) : ∃ x xs, writeList c first close as = x :: xs ∧ x ≠ ']' ∧ x ≠ '}' := by
  cases as with
  | nil => exact ⟨first, _, rfl, hfirst⟩
  | cons a as => exact ⟨first, _, rfl, hfirst⟩

theorem head_ne_bracket (c : JsonCodec α) (a : α) : ∃ x xs, c.write a = x :: xs ∧ x ≠ ']' := by
  obtain ⟨x, xs, hx, hne, -⟩ := c.head_write a
  exact ⟨x, xs, hx, hne⟩

theorem head_ne_brace (c : JsonCodec α) (a : α) : ∃ x xs, c.write a = x :: xs ∧ x ≠ '}' := by
  obtain ⟨x, xs, hx, -, hne⟩ := c.head_write a
  exact ⟨x, xs, hx, hne⟩

theorem bracket_facts : ('[' ≠ ']' ∧ '[' ≠ '}') ∧ isNumberChar ']' = false ∧ ']' ≠ ',' := by decide

theorem brace_facts : ('{' ≠ ']' ∧ '{' ≠ '}') ∧ isNumberChar '}' = false ∧ '}' ≠ ',' := by decide

/-- Arrays. -/
def array (c : JsonCodec α) : JsonCodec (List α) where
  write := writeList c '[' ']'
  read := readList c '[' ']'
  head_write := head_writeList c ']' bracket_facts.1
  read_write as rest _ :=
    readList_writeList c '[' bracket_facts.2.1 bracket_facts.2.2 c.head_ne_bracket as rest

/-- Objects, as their keys and values. -/
def object (c : JsonCodec α) : JsonCodec (List (String × α)) where
  write := writeList (text.pair c) '{' '}'
  read := readList (text.pair c) '{' '}'
  head_write := head_writeList (text.pair c) '}' brace_facts.1
  read_write as rest _ :=
    readList_writeList (text.pair c) '{' brace_facts.2.1 brace_facts.2.2 (text.pair c).head_ne_brace
      as rest

end JsonCodec

end LnPay
