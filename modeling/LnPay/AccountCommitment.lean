/-
# The commitment to an account (`shared/src/account-commitment.ts`)

A customer publishes the hash of the account a sponsor is to pay into, and a
dispute is judged by the account that is shown later.

What is hashed is the salt followed by the account as `JSON.stringify` writes it,
with nothing in between, and the salt is whatever is shown.  `committedText_inj`
is why this is no way out: an object can only begin where the account begins.
The hash function is a parameter.
-/
import LnPay.ClientEvents
import LnPay.JsonText

namespace LnPay

/-! ## The text that is hashed -/

/-- A text between quotes, and what follows it. -/
def quoted (s : String) (rest : List Char) : List Char :=
  '"' :: (s.toList.flatMap escapeChar ++ '"' :: rest)

/-- `JSON.stringify` of an account. -/
def AccountInfo.chars (info : AccountInfo) : List Char :=
  '{' :: (quoted "bankName" (':' :: quoted info.bankName
    (',' :: quoted "accountNumber" (':' :: quoted info.accountNumber
      (',' :: quoted "holderName" (':' :: quoted info.holderName ['}']))))))

/-- The text of `computeAccountCommitment`; a salt that is missing or empty is no salt. -/
def committedText (info : AccountInfo) (salt : Option String) : String :=
  String.ofList ((salt.getD "").toList ++ info.chars)

/-- `computeAccountCommitment`. -/
def computeAccountCommitment (sha256Hex : String → String) (info : AccountInfo)
    (salt : Option String) : String :=
  sha256Hex (committedText info salt)

/-- `verifyAccountCommitment`. -/
def verifyAccountCommitment (sha256Hex : String → String) (info : AccountInfo) (commitment : String)
    (salt : Option String) : Bool :=
  computeAccountCommitment sha256Hex info salt = commitment

example : committedText ⟨"K\"B", "1\n2", "홍"⟩ (some "ab") =
    "ab\x7b\"bankName\":\"K\\\"B\",\"accountNumber\":\"1\\n2\",\"holderName\":\"홍\"\x7d" := by
  decide +kernel

/-! ## What is between quotes -/

/-- What stands between quotes ends at its closing quote, by induction on the text. -/
theorem quoted_inj {s t : List Char} {r r' : List Char}
    (h : s.flatMap escapeChar ++ '"' :: r = t.flatMap escapeChar ++ '"' :: r') : s = t ∧ r = r' := by
  have hquote : ∀ (c : Char) (l r : List Char), '"' :: r ≠ escapeChar c ++ l := by
    intro c l r he
    obtain ⟨d, cs, hd, hne⟩ := head_escapeChar c
    rw [hd] at he
    exact hne (List.cons.inj he).1.symm
  induction s generalizing t with
  | nil =>
    cases t with
    | nil => exact ⟨rfl, (List.cons.inj h).2⟩
    | cons c t =>
      rw [List.flatMap_cons, List.append_assoc] at h
      exact absurd h (hquote c _ r)
  | cons c s ih =>
    cases t with
    | nil =>
      rw [List.flatMap_cons, List.append_assoc] at h
      exact absurd h.symm (hquote c _ r')
    | cons d t =>
      rw [List.flatMap_cons, List.flatMap_cons, List.append_assoc, List.append_assoc] at h
      have hread := congrArg readEscaped h
      rw [readEscaped_escapeChar, readEscaped_escapeChar] at hread
      obtain ⟨rfl, hrest⟩ := Prod.mk.inj (Option.some.inj hread)
      obtain ⟨rfl, hr⟩ := ih hrest
      exact ⟨rfl, hr⟩

theorem quoted_eq {s t : String} {r r' : List Char} (h : quoted s r = quoted t r') :
    s = t ∧ r = r' := by
  obtain ⟨hs, hr⟩ := quoted_inj (List.cons.inj h).2
  exact ⟨String.toList_inj.mp hs, hr⟩

/-- The text of an account says which account it is. -/
theorem AccountInfo.chars_inj {a b : AccountInfo} (h : a.chars = b.chars) : a = b := by
  have h := (quoted_eq (List.cons.inj h).2).2
  obtain ⟨hbank, h⟩ := quoted_eq (List.cons.inj h).2
  have h := (quoted_eq (List.cons.inj h).2).2
  obtain ⟨hnumber, h⟩ := quoted_eq (List.cons.inj h).2
  have h := (quoted_eq (List.cons.inj h).2).2
  obtain ⟨hholder, -⟩ := quoted_eq (List.cons.inj h).2
  cases a
  cases b
  simp_all

/-! ## Where an object can begin -/

/-- An account is written from here on. -/
def beginsObject : List Char → Bool
  | '{' :: '"' :: 'b' :: _ => true
  | _ => false

/-- An account is written from somewhere on. -/
def hasObject : List Char → Bool
  | [] => false
  | c :: rest => beginsObject (c :: rest) || hasObject rest

theorem hasObject_append {l : List Char} (h : beginsObject l = true) (t : List Char) :
    hasObject (t ++ l) = true := by
  induction t with
  | nil =>
    cases l with
    | nil => cases h
    | cons c l =>
      show (beginsObject (c :: l) || hasObject l) = true
      rw [h, Bool.true_or]
  | cons c t ih =>
    show (beginsObject (c :: (t ++ l)) || hasObject (t ++ l)) = true
    rw [ih, Bool.or_true]

theorem beginsObject_of_ne {c : Char} (hc : c ≠ '{') (rest : List Char) :
    beginsObject (c :: rest) = false := by
  unfold beginsObject
  split
  · rename_i heq
    exact absurd (List.cons.inj heq).1 hc
  · rfl

/-- Characters that are not braces begin nothing. -/
theorem hasObject_noBrace {p : List Char} (hp : '{' ∉ p) (l : List Char) :
    hasObject (p ++ l) = hasObject l := by
  induction p with
  | nil => rfl
  | cons c p ih =>
    obtain ⟨hc, hrest⟩ := not_or.mp (mt List.mem_cons.mpr hp)
    show (beginsObject (c :: (p ++ l)) || hasObject (p ++ l)) = _
    rw [beginsObject_of_ne (Ne.symm hc), Bool.false_or, ih hrest]

/-- A brace between quotes is not followed by a quote, unless by the closing one, and what comes then
is not a field. -/
theorem beginsObject_quoted (s : List Char) {d : Char} (hd : d ≠ 'b') (rest : List Char) :
    beginsObject ('{' :: (s.flatMap escapeChar ++ '"' :: d :: rest)) = false := by
  cases s with
  | nil =>
    unfold beginsObject
    split
    · rename_i heq
      exact absurd (List.cons.inj (List.cons.inj (List.cons.inj heq).2).2).1 hd
    · rfl
  | cons x s =>
    rw [List.flatMap_cons, List.append_assoc]
    rcases escapeChar_cases x with ⟨hx, hne, -⟩ | ⟨q, hx, -⟩
    · rw [hx]
      unfold beginsObject
      split
      · rename_i heq
        exact absurd (List.cons.inj (List.cons.inj heq).2).1 hne
      · rfl
    · rw [hx]
      rfl

/-- Between quotes no object begins. -/
theorem hasObject_quoted (s : List Char) {d : Char} (hd : d ≠ 'b') (rest : List Char) :
    hasObject (s.flatMap escapeChar ++ '"' :: d :: rest) = hasObject (d :: rest) := by
  induction s with
  | nil => exact hasObject_noBrace (p := ['"']) (by decide) (d :: rest)
  | cons c s ih =>
    rw [List.flatMap_cons, List.append_assoc, ← ih]
    rcases escapeChar_cases c with ⟨hc, -, -⟩ | ⟨p, hc, hp⟩
    · have hbegin : beginsObject (c :: (s.flatMap escapeChar ++ '"' :: d :: rest)) = false := by
        by_cases hbrace : c = '{'
        · rw [hbrace]
          exact beginsObject_quoted s hd rest
        · exact beginsObject_of_ne hbrace _
      rw [hc]
      show (beginsObject (c :: (s.flatMap escapeChar ++ '"' :: d :: rest)) || hasObject _) = _
      rw [hbegin, Bool.false_or]
      rfl
    · have hslash : '{' ∉ '\\' :: p := by
        intro hmem
        rcases List.mem_cons.mp hmem with he | hmem
        · exact absurd he (by decide)
        · exact hp hmem
      rw [hc]
      exact hasObject_noBrace hslash _

theorem hasObject_field (s : String) {d : Char} (hd : d ≠ 'b') (rest : List Char) :
    hasObject (quoted s (d :: rest)) = hasObject (d :: rest) := by
  have hskip := hasObject_noBrace (p := ['"']) (by decide)
    (s.toList.flatMap escapeChar ++ '"' :: d :: rest)
  exact hskip.trans (hasObject_quoted s.toList hd rest)

/-- In the text of an account an object begins at its first character only. -/
theorem AccountInfo.hasObject_tail (info : AccountInfo) : hasObject info.chars.tail = false := by
  have hsep : ∀ (c : Char) (l : List Char), c ≠ '{' → hasObject (c :: l) = hasObject l := by
    intro c l hc
    show (beginsObject (c :: l) || hasObject l) = _
    rw [beginsObject_of_ne hc, Bool.false_or]
  show hasObject (quoted "bankName" _) = false
  rw [hasObject_field _ (by decide), hsep _ _ (by decide), hasObject_field _ (by decide),
    hsep _ _ (by decide), hasObject_field _ (by decide), hsep _ _ (by decide),
    hasObject_field _ (by decide), hsep _ _ (by decide), hasObject_field _ (by decide),
    hsep _ _ (by decide), hasObject_field _ (by decide)]
  rfl

theorem AccountInfo.beginsObject_chars (info : AccountInfo) : beginsObject info.chars = true := rfl

/-- An account cannot be a part of another account's text that begins later. -/
theorem AccountInfo.eq_of_suffix {a b : AccountInfo} {t : List Char} (h : a.chars = t ++ b.chars) :
    t = [] := by
  cases t with
  | nil => rfl
  | cons c t =>
    have htail : a.chars.tail = t ++ b.chars := by
      rw [h]
      rfl
    have hfalse := a.hasObject_tail
    rw [htail, hasObject_append b.beginsObject_chars] at hfalse
    cases hfalse

/-! ## What a commitment binds -/

/-- **The hashed text determines the account and the salt**, whatever salts are tried. -/
theorem committedText_inj {a b : AccountInfo} {salt salt' : Option String}
    (h : committedText a salt = committedText b salt') : a = b ∧ salt.getD "" = salt'.getD "" := by
  have hchars : (salt.getD "").toList ++ a.chars = (salt'.getD "").toList ++ b.chars := by
    have hlist := congrArg String.toList h
    rwa [committedText, committedText, String.toList_ofList, String.toList_ofList] at hlist
  have hempty : ∀ {x y : String} {t : List Char} {c d : AccountInfo},
      y.toList = x.toList ++ t → c.chars = t ++ d.chars → c = d ∧ x = y := by
    intro x y t c d hxy hcd
    obtain rfl := AccountInfo.eq_of_suffix hcd
    rw [List.append_nil] at hxy
    exact ⟨AccountInfo.chars_inj hcd, (String.toList_inj.mp hxy).symm⟩
  rcases List.append_eq_append_iff.mp hchars with ⟨t, hsalt, htext⟩ | ⟨t, hsalt, htext⟩
  · exact hempty hsalt htext
  · obtain ⟨hab, hs⟩ := hempty hsalt htext
    exact ⟨hab.symm, hs.symm⟩

/-- **A commitment binds the account and its salt.**  What is shown later is accepted exactly when it
is the account and the salt that were committed to, or else the two texts are a collision of the
hash function; a commitment without a salt is no exception. -/
theorem commitment_binds (sha256Hex : String → String) (info info₀ : AccountInfo)
    (salt salt₀ : Option String) :
    verifyAccountCommitment sha256Hex info (computeAccountCommitment sha256Hex info₀ salt₀) salt =
        true ↔
      (info = info₀ ∧ salt.getD "" = salt₀.getD "") ∨
        (committedText info salt ≠ committedText info₀ salt₀ ∧
          sha256Hex (committedText info salt) = sha256Hex (committedText info₀ salt₀)) := by
  unfold verifyAccountCommitment computeAccountCommitment
  rw [decide_eq_true_iff]
  constructor
  · intro heq
    by_cases htext : committedText info salt = committedText info₀ salt₀
    · exact .inl (committedText_inj htext)
    · exact .inr ⟨htext, heq⟩
  · rintro (⟨rfl, hsalt⟩ | ⟨-, heq⟩)
    · rw [committedText, committedText, hsalt]
    · exact heq

end LnPay
