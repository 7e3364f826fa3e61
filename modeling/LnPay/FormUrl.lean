/-
# The form encoding of queries

A query is a list of names and values.  Its text joins `name=value` by `&`; a
byte of a name or a value stands for itself when it is a letter, a digit or one
of `* - . _`, a blank is `+`, and every other byte is `%` with two hexadecimal
digits.

* `encodeBytes`, `decodeBytes` are the two directions on bytes,
* `Utf8` is what decoding bytes as text has to satisfy,
* `serialize`, `parse` are the two directions on queries,
* `parse_serialize` says that nothing is lost.
-/
import Mathlib.Tactic.Common

namespace FormUrl

/-! ## Bytes -/

/-- The bytes that stand for themselves. -/
def unreserved (b : UInt8) : Bool :=
  let c := Char.ofNat b.toNat
  b < 128 && (c.isAlphanum || c = '*' || c = '-' || c = '.' || c = '_')

/-- The digit of a number below sixteen. -/
def hexDigit (n : ℕ) : Char :=
  if n < 10 then Char.ofNat (48 + n) else Char.ofNat (55 + n)

/-- The number of a hexadecimal digit, of either case. -/
def hexValue (c : Char) : Option ℕ :=
  if '0' ≤ c ∧ c ≤ '9' then some (c.toNat - 48)
  else if 'A' ≤ c ∧ c ≤ 'F' then some (c.toNat - 55)
  else if 'a' ≤ c ∧ c ≤ 'f' then some (c.toNat - 87)
  else none

/-- The text of one byte. -/
def encodeByte (b : UInt8) : List Char :=
  if unreserved b then [Char.ofNat b.toNat]
  else if b = 32 then ['+']
  else ['%', hexDigit (b.toNat / 16), hexDigit (b.toNat % 16)]

/-- The text of some bytes. -/
def encodeBytes (bs : List UInt8) : List Char := bs.flatMap encodeByte

/-- The bytes of a text.  A `%` without two digits behind it stands for itself. -/
def decodeBytes : List Char → List UInt8
  | [] => []
  | '+' :: cs => 32 :: decodeBytes cs
  | '%' :: a :: b :: cs =>
    match hexValue a, hexValue b with
    | some x, some y => UInt8.ofNat (16 * x + y) :: decodeBytes cs
    | _, _ => 37 :: decodeBytes (a :: b :: cs)
  | c :: cs => (String.utf8EncodeChar c) ++ decodeBytes cs

theorem hexValue_hexDigit : ∀ n < 16, hexValue (hexDigit n) = some n := by
  decide

/-- A byte that stands for itself is no mark, and is the encoding of its character. -/
theorem unreserved_char : ∀ b : UInt8, unreserved b = true →
    Char.ofNat b.toNat ≠ '+' ∧ Char.ofNat b.toNat ≠ '%' ∧
      String.utf8EncodeChar (Char.ofNat b.toNat) = [b] := by
  suffices h : ∀ n : Fin 256, unreserved (UInt8.ofNat n) = true →
      Char.ofNat (UInt8.ofNat n).toNat ≠ '+' ∧ Char.ofNat (UInt8.ofNat n).toNat ≠ '%' ∧
        String.utf8EncodeChar (Char.ofNat (UInt8.ofNat n).toNat) = [UInt8.ofNat n] by
    intro b hb
    have hlt : b.toNat < 256 := b.toNat_lt
    have hof : UInt8.ofNat b.toNat = b := UInt8.ofNat_toNat
    have := h ⟨b.toNat, hlt⟩
    simp only [hof] at this
    exact this hb
  decide +kernel

theorem decodeBytes_plain {c : Char} (cs : List Char) (hp : c ≠ '+') (hq : c ≠ '%') :
    decodeBytes (c :: cs) = String.utf8EncodeChar c ++ decodeBytes cs := by
  rw [decodeBytes]
  · exact hp
  · rintro _ _ _ rfl
    exact absurd rfl hq

theorem decodeBytes_encodeByte (b : UInt8) (cs : List Char) :
    decodeBytes (encodeByte b ++ cs) = b :: decodeBytes cs := by
  unfold encodeByte
  by_cases hu : unreserved b = true
  · obtain ⟨hp, hq, henc⟩ := unreserved_char b hu
    rw [if_pos hu, List.cons_append, List.nil_append, decodeBytes_plain cs hp hq, henc]
    rfl
  · rw [if_neg hu]
    by_cases hs : b = 32
    · rw [if_pos hs, hs, List.cons_append, List.nil_append, decodeBytes]
    · have hlt : b.toNat < 256 := b.toNat_lt
      have hx := hexValue_hexDigit (b.toNat / 16) (by omega)
      have hy := hexValue_hexDigit (b.toNat % 16) (by omega)
      rw [if_neg hs]
      simp only [List.cons_append, List.nil_append]
      rw [decodeBytes, hx, hy]
      have hsum : 16 * (b.toNat / 16) + b.toNat % 16 = b.toNat := Nat.div_add_mod _ _
      simp only [hsum, UInt8.ofNat_toNat]

/-- The bytes come back. -/
theorem decodeBytes_encodeBytes (bs : List UInt8) : decodeBytes (encodeBytes bs) = bs := by
  induction bs with
  | nil => rfl
  | cons b bs ih =>
    rw [encodeBytes, List.flatMap_cons, decodeBytes_encodeByte]
    exact congrArg (b :: ·) ih

/-- The marks between names and values are not in an encoded text. -/
theorem not_mark_encodeByte : ∀ b : UInt8, '&' ∉ encodeByte b ∧ '=' ∉ encodeByte b ∧
    '?' ∉ encodeByte b := by
  suffices h : ∀ n : Fin 256, '&' ∉ encodeByte (UInt8.ofNat n) ∧ '=' ∉ encodeByte (UInt8.ofNat n) ∧
      '?' ∉ encodeByte (UInt8.ofNat n) by
    intro b
    have := h ⟨b.toNat, b.toNat_lt⟩
    simpa only [UInt8.ofNat_toNat] using this
  decide +kernel

theorem not_mark_encodeBytes (bs : List UInt8) : '&' ∉ encodeBytes bs ∧ '=' ∉ encodeBytes bs ∧
    '?' ∉ encodeBytes bs := by
  simp only [encodeBytes, List.mem_flatMap, not_exists, not_and]
  exact ⟨fun b _ => (not_mark_encodeByte b).1, fun b _ => (not_mark_encodeByte b).2.1,
    fun b _ => (not_mark_encodeByte b).2.2⟩

/-! ## Texts -/

/-- Decoding bytes as UTF-8: what a text encodes to gives the text back.  Bytes that encode no text
may give anything. -/
structure Utf8 where
  decode : List UInt8 → String
  decode_encode : ∀ s : String, decode s.toUTF8.data.toList = s

theorem fromUTF8_toUTF8 (s : String) :
    (String.fromUTF8? ⟨s.toUTF8.data.toList.toArray⟩).getD "" = s := by
  have hbytes : (⟨s.toUTF8.data.toList.toArray⟩ : ByteArray) = s.toUTF8 := by
    rw [Array.toArray_toList]
  have hvalid : s.toUTF8.IsValidUTF8 := s.isValidUTF8
  rw [hbytes, String.fromUTF8?, dif_pos hvalid]
  rfl

/-- The decoder that gives no text for bytes that encode none. -/
def strict : Utf8 where
  decode bs := (String.fromUTF8? ⟨bs.toArray⟩).getD ""
  decode_encode := fromUTF8_toUTF8

/-- The text of a name or a value. -/
def encode (s : String) : List Char := encodeBytes s.toUTF8.data.toList

/-- The name or value of a text. -/
def Utf8.text (utf8 : Utf8) (cs : List Char) : String := utf8.decode (decodeBytes cs)

theorem Utf8.text_encode (utf8 : Utf8) (s : String) : utf8.text (encode s) = s := by
  rw [Utf8.text, encode, decodeBytes_encodeBytes, utf8.decode_encode]

/-! ## Queries -/

/-- The text of one name and its value. -/
def pairText (p : String × String) : List Char := encode p.1 ++ '=' :: encode p.2

/-- The text of a query. -/
def serialize (query : List (String × String)) : List Char :=
  ['&'].intercalate (query.map pairText)

/-- The name and value of a piece; a piece without `=` is a name with an empty value. -/
def Utf8.pair (utf8 : Utf8) (piece : List Char) : String × String :=
  (utf8.text (piece.takeWhile (· ≠ '=')), utf8.text ((piece.dropWhile (· ≠ '=')).drop 1))

/-- The query of a text.  A `?` in front is dropped, and so are empty pieces. -/
def Utf8.parse (utf8 : Utf8) (text : List Char) : List (String × String) :=
  let text := if text.head? = some '?' then text.tail else text
  ((text.splitOn '&').filter (· ≠ [])).map utf8.pair

theorem pair_pairText (utf8 : Utf8) (p : String × String) : utf8.pair (pairText p) = p := by
  have hno : ∀ c ∈ encode p.1, decide (c ≠ '=') = true := by
    intro c hc
    rw [decide_eq_true_iff]
    rintro rfl
    exact (not_mark_encodeBytes _).2.1 hc
  rw [Utf8.pair, pairText, List.takeWhile_append_of_pos hno, List.dropWhile_append_of_pos hno]
  simp only [ne_eq, not_true_eq_false, decide_false, Bool.false_eq_true, not_false_eq_true,
    List.takeWhile_cons_of_neg, List.dropWhile_cons_of_neg, List.append_nil, List.drop_succ_cons,
    List.drop_zero, utf8.text_encode]

theorem not_mem_pairText (p : String × String) : '&' ∉ pairText p ∧ '?' ∉ pairText p := by
  obtain ⟨h, -, h'⟩ := not_mark_encodeBytes p.1.toUTF8.data.toList
  obtain ⟨k, -, k'⟩ := not_mark_encodeBytes p.2.toUTF8.data.toList
  simp only [pairText, encode, List.mem_append, List.mem_cons, not_or]
  exact ⟨⟨h, by decide, k⟩, h', by decide, k'⟩

theorem pairText_ne_nil (p : String × String) : pairText p ≠ [] := by
  simp [pairText]

/-- The text of a query that is not empty starts with that of its first pair. -/
theorem serialize_cases (query : List (String × String)) :
    query = [] ∨ ∃ p rest, serialize query = pairText p ++ rest := by
  cases query with
  | nil => exact .inl rfl
  | cons p ps =>
    right
    cases ps with
    | nil => exact ⟨p, [], by simp [serialize, List.intercalate]⟩
    | cons q qs => exact ⟨p, '&' :: serialize (q :: qs), by simp [serialize, List.intercalate]⟩

/-- **Nothing is lost**: the text of a query gives the query back, with or without a `?` in front. -/
theorem parse_serialize (utf8 : Utf8) (query : List (String × String)) :
    utf8.parse (serialize query) = query ∧ utf8.parse ('?' :: serialize query) = query := by
  have hpieces : (((serialize query).splitOn '&').filter (· ≠ [])).map utf8.pair = query := by
    cases hq : query with
    | nil => simp [serialize, List.splitOn, List.intercalate]
    | cons p ps =>
      have hmap : (p :: ps).map pairText ≠ [] := List.cons_ne_nil _ _
      have hfree : ∀ l ∈ (p :: ps).map pairText, '&' ∉ l := by
        rintro _ hl
        obtain ⟨x, -, rfl⟩ := List.mem_map.mp hl
        exact (not_mem_pairText x).1
      rw [serialize, List.splitOn_intercalate '&' hfree hmap]
      have hfull : ((p :: ps).map pairText).filter (· ≠ []) = (p :: ps).map pairText := by
        refine List.filter_eq_self.mpr fun l hl => ?_
        obtain ⟨x, -, rfl⟩ := List.mem_map.mp hl
        exact decide_eq_true (pairText_ne_nil x)
      rw [hfull, List.map_map]
      calc (p :: ps).map (utf8.pair ∘ pairText) = (p :: ps).map id :=
            List.map_congr_left fun x _ => pair_pairText utf8 x
        _ = p :: ps := List.map_id _
  have hmark : (serialize query).head? ≠ some '?' := by
    intro hhead
    obtain rfl | ⟨p, rest, hp⟩ := serialize_cases query
    · exact absurd hhead (by simp [serialize, List.intercalate])
    · rw [hp, List.head?_append, List.head?_eq_some_head (pairText_ne_nil p), Option.some_or] at hhead
      have hin := List.head_mem (pairText_ne_nil p)
      rw [Option.some.inj hhead] at hin
      exact (not_mem_pairText p).2 hin
  constructor
  · rw [Utf8.parse, if_neg hmark]
    exact hpieces
  · rw [Utf8.parse, List.head?_cons, if_pos rfl]
    exact hpieces

end FormUrl
