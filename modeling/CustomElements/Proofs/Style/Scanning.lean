import CustomElements.Style.Token
import Mathlib.Data.List.Basic

/-!
# Scanning up to a mark

Four characters, the semicolon, the comma and the two curly braces, hold rules apart. Such a mark
is a token of its own wherever a token begins with it, and nothing that a scanner looks at across a
mark changes what it finds before the mark: a scanner that stops there has found the same whatever
follows (`Token.scan_upto`). One that runs across the mark, as in a string or after a backslash, may
well depend on what follows.

The scanning functions match several characters at once. They are first restated by what they do
with one character, given the text behind it, and then taken up to a mark one by one.
-/

namespace CustomElements.Style

/-- The characters that separate and enclose what a rule is made of. -/
inductive Mark where
  | semicolon
  | comma
  | openCurly
  | closeCurly
  deriving DecidableEq, Repr

namespace Mark

/-- The character that the mark is written as. -/
def char : Mark → Char
  | semicolon => ';'
  | comma => ','
  | openCurly => '\x7b'
  | closeCurly => '\x7d'

/-- The kind of the token that the mark is. -/
def kind : Mark → Token.Kind
  | semicolon => .semicolon
  | comma => .comma
  | openCurly => .openCurly
  | closeCurly => .closeCurly

/-- The token that a mark is wherever a token begins with it. -/
def token (m : Mark) : Token := ⟨m.kind, [m.char]⟩

end Mark

namespace Token

/-! ## One character at a time -/

theorem newlineLength_cons (c : Char) (rest : List Char) : newlineLength (c :: rest) =
    if c = '\r' ∧ rest.head? = some '\n' then 2 else if isNewline c then 1 else 0 := by
  unfold newlineLength
  split
  · rename_i h; cases h; rfl
  · rename_i hne h; cases h
    have hno : ¬(c = '\r' ∧ rest.head? = some '\n') := by
      rintro ⟨rfl, hrest⟩
      obtain ⟨rest', rfl⟩ := List.head?_eq_some_iff.mp hrest
      exact hne rest' rfl rfl
    rw [if_neg hno]
  · rename_i h; cases h

theorem escapeLength_eq (cs : List Char) : escapeLength cs =
    if (hexDigits 6 cs).length = 0 then min 1 cs.length
    else (hexDigits 6 cs).length +
      if (cs.drop (hexDigits 6 cs).length).head? = some ' ' ∨
          (cs.drop (hexDigits 6 cs).length).head? = some '\t' then 1
      else newlineLength (cs.drop (hexDigits 6 cs).length) := by
  unfold escapeLength
  simp only
  split
  · rfl
  · generalize cs.drop (hexDigits 6 cs).length = rest
    split
    · simp
    · simp
    · rename_i h1 h2
      rw [if_neg]
      rintro (h | h) <;> obtain ⟨rest', rfl⟩ := List.head?_eq_some_iff.mp h
      · exact h1 rest' rfl
      · exact h2 rest' rfl

theorem startsIdent_cons (c : Char) (rest : List Char) : startsIdent (c :: rest) =
    if c = '-' then rest.head?.any (fun d => isNameStart d || d == '-' || d == '\\')
    else if c = '\\' then !startsLine rest else isNameStart c := by
  unfold startsIdent
  split
  · rename_i h; cases h; simp
  · rename_i h; cases h; simp
  · rename_i h1 h2 h; cases h
    rw [if_neg (fun hc => h2 hc)]
    split
    · rename_i hc
      subst hc
      cases rest with
      | nil => rfl
      | cons d rest => exact absurd rfl (h1 d rest rfl)
    · rfl
  · rename_i h; cases h

theorem startsNumber_cons (c : Char) (rest : List Char) :
    startsNumber (c :: rest) = if c = '.' then startsDigit rest else c.isDigit := by
  unfold startsNumber
  split
  · rename_i h; cases h; rfl
  · rename_i hne; rw [if_neg fun hc => hne rest (by rw [hc])]; rfl

theorem startsQuoted_eq (cs : List Char) :
    startsQuoted cs = (cs.dropWhile isSpace).head?.any fun c => c == '"' || c == '\'' := by
  unfold startsQuoted
  cases cs.dropWhile isSpace <;> rfl

theorem commentLength_cons (c : Char) (rest : List Char) : commentLength (c :: rest) =
    if c = '*' ∧ rest.head? = some '/' then 2 else 1 + commentLength rest := by
  rw [commentLength.eq_def]
  split
  · rename_i h; cases h
  · rename_i h; cases h; rfl
  · rename_i hne h; cases h
    rw [if_neg]
    rintro ⟨rfl, hrest⟩
    obtain ⟨rest', rfl⟩ := List.head?_eq_some_iff.mp hrest
    exact hne rest' rfl rfl

theorem urlLength_bad_cons (c : Char) (rest : List Char) : urlLength .bad 0 (c :: rest) =
    if c = ')' then 1
    else if c = '\\' ∧ (rest.head? = some ')' ∨ rest.head? = some '\\') then
      1 + urlLength .bad 1 rest
    else 1 + urlLength .bad 0 rest := by
  simp only [urlLength, beq_iff_eq]
  by_cases hc : c = ')'
  · rw [if_pos hc, if_pos hc]
  rw [if_neg hc, if_neg hc]
  split
  · simp
  · simp
  · rename_i h1 h2
    rw [if_neg]
    rintro ⟨rfl, h | h⟩ <;> obtain ⟨rest', rfl⟩ := List.head?_eq_some_iff.mp h
    · exact h1 rest' rfl rfl
    · exact h2 rest' rfl rfl

theorem fractionLength_cons (c : Char) (rest : List Char) : fractionLength (c :: rest) =
    if c = '.' ∧ startsDigit rest then 1 + digitsLength rest else 0 := by
  unfold fractionLength
  split
  · rename_i h; cases h; simp
  · rename_i hne; rw [if_neg fun hc => hne rest (by rw [hc.1])]

/-- The length of a number up to its percent sign or its unit. -/
def plainNumberLength (cs : List Char) : Nat :=
  digitsLength cs + fractionLength (cs.drop (digitsLength cs)) +
    exponentLength (cs.drop (digitsLength cs + fractionLength (cs.drop (digitsLength cs))))

theorem numberLength_eq (cs : List Char) : numberLength cs =
    if (cs.drop (plainNumberLength cs)).head? = some '%' then plainNumberLength cs + 1
    else if startsIdent (cs.drop (plainNumberLength cs)) then
      plainNumberLength cs + nameLength 0 (cs.drop (plainNumberLength cs))
    else plainNumberLength cs := by
  unfold numberLength
  simp only
  split
  · rename_i rest h
    have hdrop : cs.drop (plainNumberLength cs) = '%' :: rest := h
    rw [hdrop, List.head?_cons, if_pos rfl]
    rfl
  · rename_i hne
    have hno : ¬(cs.drop (plainNumberLength cs)).head? = some '%' := by
      intro h
      obtain ⟨rest', h⟩ := List.head?_eq_some_iff.mp h
      exact hne rest' h
    rw [if_neg hno]
    rfl

theorem identLike_eq (cs : List Char) : identLike cs =
    if (cs.drop (nameLength 0 cs)).head? = some '(' then
      if (unescape 0 (cs.take (nameLength 0 cs))).map Char.toLower = ['u', 'r', 'l'] ∧
          ¬startsQuoted (cs.drop (nameLength 0 cs)).tail then
        (.other, nameLength 0 cs + 1 +
          ((cs.drop (nameLength 0 cs)).tail.takeWhile isSpace).length +
          urlLength .body 0 ((cs.drop (nameLength 0 cs)).tail.drop
            ((cs.drop (nameLength 0 cs)).tail.takeWhile isSpace).length))
      else (.openRound, nameLength 0 cs + 1)
    else (.ident (unescape 0 (cs.take (nameLength 0 cs))), nameLength 0 cs) := by
  unfold identLike
  simp only
  split
  · rename_i rest h
    rw [h, List.head?_cons, if_pos rfl, List.tail_cons]
  · rename_i hne
    have hno : ¬(cs.drop (nameLength 0 cs)).head? = some '(' := by
      intro h
      obtain ⟨rest', h⟩ := List.head?_eq_some_iff.mp h
      exact hne rest' h
    rw [if_neg hno]

theorem nameLength_le_identLike (cs : List Char) : nameLength 0 cs ≤ (identLike cs).2 := by
  rw [identLike_eq]
  split_ifs <;> simp only <;> omega

/-- The kind and the length of the token that a text begins with, by its first character. -/
theorem scan_cons (c : Char) (rest : List Char) : scan (c :: rest) =
    if isSpace c then (.blank, 1 + (rest.takeWhile isSpace).length)
    else if c = '"' then (.other, 1 + stringLength '"' 0 rest)
    else if c = '\'' then (.other, 1 + stringLength '\'' 0 rest)
    else if c = '#' then
      if startsIdent rest || rest.head?.any isNameChar then (.other, 1 + nameLength 0 rest)
      else (.other, 1)
    else if c = '(' then (.openRound, 1)
    else if c = ')' then (.closeRound, 1)
    else if c = '[' then (.openSquare, 1)
    else if c = ']' then (.closeSquare, 1)
    else if c = '\x7b' then (.openCurly, 1)
    else if c = '\x7d' then (.closeCurly, 1)
    else if c = ',' then (.comma, 1)
    else if c = ':' then (.colon, 1)
    else if c = ';' then (.semicolon, 1)
    else if c = '+' then if startsNumber rest then (.other, 1 + numberLength rest) else (.other, 1)
    else if c = '-' then
      if ['-', '>'] <+: rest then (.marker, 3)
      else if startsNumber rest then (.other, 1 + numberLength rest)
      else if startsIdent (c :: rest) then identLike (c :: rest)
      else (.other, 1)
    else if c = '/' ∧ ['*'] <+: rest then (.comment, 2 + commentLength rest.tail)
    else if c = '<' ∧ ['!', '-', '-'] <+: rest then (.marker, 4)
    else if c = '@' then
      if startsIdent rest then
        (.atKeyword (unescape 0 (rest.take (nameLength 0 rest))), 1 + nameLength 0 rest)
      else (.other, 1)
    else if startsNumber (c :: rest) then (.other, numberLength (c :: rest))
    else if startsIdent (c :: rest) then identLike (c :: rest)
    else (.other, 1) := by
  -- characters that settle the kind alone
  by_cases hsimple : c = '"' ∨ c = '\'' ∨ c = '(' ∨ c = ')' ∨ c = '[' ∨ c = ']' ∨ c = '\x7b' ∨
      c = '\x7d' ∨ c = ',' ∨ c = ':' ∨ c = ';' ∨ c = '+' ∨ c = '@'
  · rcases hsimple with rfl | rfl | rfl | rfl | rfl | rfl | rfl | rfl | rfl | rfl | rfl | rfl | rfl
      <;> rfl
  simp only [not_or] at hsimple
  by_cases hhash : c = '#'
  · subst hhash; cases rest <;> rfl
  by_cases hdash : c = '-'
  · subst hdash
    rcases rest with - | ⟨d, - | ⟨e, rest⟩⟩
    · rfl
    · simp [scan, isSpace, isNewline]
    · by_cases hd : d = '-'
      · by_cases he : e = '>'
        · subst hd he; rfl
        · simp [scan, he, Ne.symm he, isSpace, isNewline]
      · simp [scan, hd, Ne.symm hd, isSpace, isNewline]
  by_cases hslash : c = '/'
  · subst hslash
    rcases rest with - | ⟨d, rest⟩
    · rfl
    · by_cases hd : d = '*'
      · subst hd; rfl
      · simp [scan, hd, Ne.symm hd, isSpace, isNewline]
  by_cases hless : c = '<'
  · subst hless
    rcases rest with - | ⟨d, - | ⟨e, - | ⟨f, rest⟩⟩⟩
    · rfl
    · simp [scan, isSpace, isNewline]
    · simp [scan, isSpace, isNewline]
    · by_cases hd : d = '!'
      · by_cases he : e = '-'
        · by_cases hf : f = '-'
          · subst hd he hf; rfl
          · simp [scan, hf, Ne.symm hf, isSpace, isNewline]
        · simp [scan, he, Ne.symm he, isSpace, isNewline]
      · simp [scan, hd, Ne.symm hd, isSpace, isNewline]
  simp only [hsimple, hhash, hdash, hslash, hless, if_false, false_and]
  rw [scan]
  all_goals simp only [hsimple, hhash, hdash, hslash, hless, false_imp_iff, implies_true]

/-! ## Lengths -/

section Lengths

variable (a : List Char)

theorem length_hexDigits_le (limit : Nat) : (hexDigits limit a).length ≤ a.length := by
  induction a generalizing limit with
  | nil => cases limit <;> exact Nat.le_refl 0
  | cons c a ih =>
      cases limit with
      | zero => exact Nat.zero_le _
      | succ limit =>
          rw [hexDigits]
          split
          · exact Nat.succ_le_succ (ih limit)
          · exact Nat.zero_le _

theorem digitsLength_le : digitsLength a ≤ a.length := (List.takeWhile_prefix _).length_le

theorem fractionLength_le : fractionLength a ≤ a.length := by
  cases a with
  | nil => exact Nat.le_refl 0
  | cons c a =>
      have := digitsLength_le a
      rw [fractionLength_cons, List.length_cons]
      split <;> omega

theorem exponentLength_le : exponentLength a ≤ a.length := by
  match a with
  | [] => exact Nat.le_refl 0
  | [e] => exact Nat.zero_le 1
  | e :: sign :: a =>
      have h1 := digitsLength_le (sign :: a)
      have h2 := digitsLength_le a
      simp only [exponentLength, List.length_cons] at h1 ⊢
      split_ifs <;> omega

theorem plainNumberLength_le : plainNumberLength a ≤ a.length := by
  have h1 := digitsLength_le a
  have h2 := fractionLength_le (a.drop (digitsLength a))
  have h3 := exponentLength_le (a.drop (digitsLength a + fractionLength (a.drop (digitsLength a))))
  rw [List.length_drop] at h2 h3
  rw [plainNumberLength]
  omega

end Lengths

/-! ## Up to a mark -/

section Upto

variable (m : Mark) (a r r' : List Char)

theorem head?_upto {c : Char} (hc : c ≠ m.char) :
    (a ++ m.char :: r).head? = some c ↔ a.head? = some c := by
  cases a <;> simp [Ne.symm hc]

theorem any_head?_upto {p : Char → Bool} (hp : p m.char = false) :
    (a ++ m.char :: r).head?.any p = a.head?.any p := by
  cases a <;> simp [hp]

theorem prefix_upto {p : List Char} (hp : m.char ∉ p) : p <+: a ++ m.char :: r ↔ p <+: a := by
  induction p generalizing a with
  | nil => simp
  | cons x p ih =>
      rw [List.mem_cons, not_or] at hp
      cases a with
      | nil => simp [List.cons_prefix_cons, Ne.symm hp.1]
      | cons c a => rw [List.cons_append, List.cons_prefix_cons, List.cons_prefix_cons, ih a hp.2]

theorem takeWhile_upto (p : Char → Bool) (hm : p m.char = false) :
    (a ++ m.char :: r).takeWhile p = a.takeWhile p := by
  induction a with
  | nil => simp [hm]
  | cons c a ih => simp only [List.cons_append, List.takeWhile_cons, ih]

theorem dropWhile_upto (p : Char → Bool) (hm : p m.char = false) :
    (a ++ m.char :: r).dropWhile p = a.dropWhile p ++ m.char :: r := by
  induction a with
  | nil => simp [hm]
  | cons c a ih =>
      simp only [List.cons_append, List.dropWhile_cons, ih]
      split <;> rfl

theorem startsLine_upto : startsLine (a ++ m.char :: r) = startsLine a := by
  cases a with
  | nil => cases m <;> rfl
  | cons c a => rfl

theorem newlineLength_upto : newlineLength (a ++ m.char :: r) = newlineLength a := by
  cases a with
  | nil => cases m <;> rfl
  | cons c a =>
      rw [List.cons_append, newlineLength_cons, newlineLength_cons]
      simp only [head?_upto m a r (show '\n' ≠ m.char by cases m <;> decide)]

theorem hexDigits_upto (limit : Nat) : hexDigits limit (a ++ m.char :: r) = hexDigits limit a := by
  induction a generalizing limit with
  | nil => cases limit <;> cases m <;> rfl
  | cons c a ih =>
      cases limit with
      | zero => rfl
      | succ limit => simp only [List.cons_append, hexDigits, ih]

theorem escapeLength_upto :
    escapeLength (a ++ m.char :: r) = escapeLength (a ++ m.char :: r') := by
  have hlen := length_hexDigits_le a 6
  have hmin : ∀ r, min 1 (a ++ m.char :: r).length = 1 := fun r => by
    rw [List.length_append, List.length_cons]
    omega
  simp only [escapeLength_eq, hexDigits_upto, hmin, List.drop_append_of_le_length hlen,
    newlineLength_upto, head?_upto m _ _ (show ' ' ≠ m.char by cases m <;> decide),
    head?_upto m _ _ (show '\t' ≠ m.char by cases m <;> decide)]

theorem startsIdent_upto : startsIdent (a ++ m.char :: r) = startsIdent a := by
  cases a with
  | nil => cases m <;> rfl
  | cons c a =>
      rw [List.cons_append, startsIdent_cons, startsIdent_cons, startsLine_upto,
        any_head?_upto m a r (by cases m <;> rfl)]

theorem startsDigit_upto : startsDigit (a ++ m.char :: r) = startsDigit a := by
  cases a with
  | nil => cases m <;> rfl
  | cons c a => rfl

theorem startsNumber_upto : startsNumber (a ++ m.char :: r) = startsNumber a := by
  cases a with
  | nil => cases m <;> rfl
  | cons c a => rw [List.cons_append, startsNumber_cons, startsNumber_cons, startsDigit_upto]

theorem startsQuoted_upto : startsQuoted (a ++ m.char :: r) = startsQuoted a := by
  rw [startsQuoted_eq, startsQuoted_eq, dropWhile_upto m a r isSpace (by cases m <;> rfl),
    any_head?_upto m _ r (by cases m <;> rfl)]

theorem digitsLength_upto : digitsLength (a ++ m.char :: r) = digitsLength a := by
  rw [digitsLength, digitsLength, takeWhile_upto m a r _ (by cases m <;> rfl)]

theorem fractionLength_upto : fractionLength (a ++ m.char :: r) = fractionLength a := by
  cases a with
  | nil => cases m <;> rfl
  | cons c a =>
      rw [List.cons_append, fractionLength_cons, fractionLength_cons, startsDigit_upto,
        digitsLength_upto]

theorem exponentLength_upto : exponentLength (a ++ m.char :: r) = exponentLength a := by
  match a with
  | [] => cases r <;> cases m <;> rfl
  | [e] => cases m <;> simp [exponentLength, Mark.char, Char.isDigit]
  | e :: sign :: a =>
      have hdigits := digitsLength_upto m (sign :: a) r
      rw [List.cons_append] at hdigits
      simp only [List.cons_append, exponentLength, hdigits, digitsLength_upto m a r,
        startsDigit_upto m a r]

theorem plainNumberLength_upto : plainNumberLength (a ++ m.char :: r) = plainNumberLength a := by
  have h1 := digitsLength_le a
  have h2 := fractionLength_le (a.drop (digitsLength a))
  rw [List.length_drop] at h2
  rw [plainNumberLength, digitsLength_upto, List.drop_append_of_le_length h1, fractionLength_upto,
    List.drop_append_of_le_length (by omega), exponentLength_upto, plainNumberLength]

theorem nameLength_upto (taken : Nat) (h : nameLength taken (a ++ m.char :: r) ≤ a.length) :
    nameLength taken (a ++ m.char :: r') = nameLength taken (a ++ m.char :: r) := by
  induction a generalizing taken with
  | nil =>
      cases taken with
      | zero => cases m <;> rfl
      | succ taken => simp [nameLength] at h
  | cons c a ih =>
      cases taken with
      | succ taken =>
          simp only [List.cons_append, nameLength, List.length_cons] at h ⊢
          rw [ih taken (by omega)]
      | zero =>
          simp only [List.cons_append, nameLength, List.length_cons, startsLine_upto m a,
            escapeLength_upto m a r' r] at h ⊢
          split_ifs at h ⊢
          · rw [ih 0 (by omega)]
          · rw [ih _ (by omega)]
          · rfl

theorem stringLength_upto (quote : Char) (hq : quote = '"' ∨ quote = '\'') (taken : Nat)
    (h : stringLength quote taken (a ++ m.char :: r) ≤ a.length) :
    stringLength quote taken (a ++ m.char :: r') = stringLength quote taken (a ++ m.char :: r) := by
  -- at the mark itself a string would go on, so the length rules that case out
  induction a generalizing taken with
  | nil =>
      cases taken with
      | zero =>
          rcases hq with rfl | rfl <;> cases m <;> simp [stringLength, Mark.char, isNewline] at h
      | succ taken => simp [stringLength] at h
  | cons c a ih =>
      cases taken with
      | succ taken =>
          simp only [List.cons_append, stringLength, List.length_cons] at h ⊢
          rw [ih taken (by omega)]
      | zero =>
          simp only [List.cons_append, stringLength, List.length_cons, startsLine_upto m a,
            newlineLength_upto m a, escapeLength_upto m a r' r] at h ⊢
          split_ifs at h ⊢
          · rfl
          · rfl
          · rw [ih _ (by omega)]
          · rw [ih _ (by omega)]
          · rw [ih _ (by omega)]

theorem commentLength_upto (h : commentLength (a ++ m.char :: r) ≤ a.length) :
    commentLength (a ++ m.char :: r') = commentLength (a ++ m.char :: r) := by
  induction a with
  | nil => cases m <;> simp [commentLength_cons, Mark.char] at h
  | cons c a ih =>
      simp only [List.cons_append, commentLength_cons,
        head?_upto m a _ (show '/' ≠ m.char by cases m <;> decide), List.length_cons] at h ⊢
      split_ifs at h ⊢
      · rfl
      · rw [ih (by omega)]

theorem urlLength_upto (part : UrlPart) (taken : Nat)
    (h : urlLength part taken (a ++ m.char :: r) ≤ a.length) :
    urlLength part taken (a ++ m.char :: r') = urlLength part taken (a ++ m.char :: r) := by
  induction a generalizing part taken with
  | nil =>
      cases taken with
      | zero =>
          cases m <;> cases part <;>
            simp [urlLength, Mark.char, isSpace, isNewline, spoilsUrl] at h
      | succ taken => simp [urlLength] at h
  | cons c a ih =>
      cases taken with
      | succ taken =>
          simp only [List.cons_append, urlLength, List.length_cons] at h ⊢
          rw [ih _ taken (by omega)]
      | zero =>
          -- the parts differ in what a backslash does
          cases part with
          | body =>
            simp only [List.cons_append, urlLength, List.length_cons, startsLine_upto m a,
              escapeLength_upto m a r' r] at h ⊢
            split_ifs at h ⊢
            · rfl
            all_goals rw [ih _ _ (by omega)]
          | trail =>
            simp only [List.cons_append, urlLength, List.length_cons] at h ⊢
            split_ifs at h ⊢
            · rfl
            all_goals rw [ih _ _ (by omega)]
          | bad =>
            simp only [List.cons_append, urlLength_bad_cons, List.length_cons,
              head?_upto m a _ (show ')' ≠ m.char by cases m <;> decide),
              head?_upto m a _ (show '\\' ≠ m.char by cases m <;> decide)] at h ⊢
            split_ifs at h ⊢
            · rfl
            all_goals rw [ih _ _ (by omega)]

theorem numberLength_upto (h : numberLength (a ++ m.char :: r) ≤ a.length) :
    numberLength (a ++ m.char :: r') = numberLength (a ++ m.char :: r) := by
  have hlen := plainNumberLength_le a
  simp only [numberLength_eq, plainNumberLength_upto, List.drop_append_of_le_length hlen,
    head?_upto m _ _ (show '%' ≠ m.char by cases m <;> decide), startsIdent_upto] at h ⊢
  split_ifs at h ⊢
  · rfl
  · rw [nameLength_upto m (a.drop (plainNumberLength a)) r r' 0 (by rw [List.length_drop]; omega)]
  · rfl

theorem identLike_upto (h : (identLike (a ++ m.char :: r)).2 ≤ a.length) :
    identLike (a ++ m.char :: r') = identLike (a ++ m.char :: r) := by
  have hn : nameLength 0 (a ++ m.char :: r) ≤ a.length :=
    Nat.le_trans (nameLength_le_identLike _) h
  have hspace : isSpace m.char = false := by cases m <;> rfl
  rw [identLike_eq] at h
  rw [identLike_eq, identLike_eq, nameLength_upto m a r r' 0 hn]
  generalize nameLength 0 (a ++ m.char :: r) = n at h hn
  simp only [List.drop_append_of_le_length hn, List.take_append_of_le_length hn,
    head?_upto m _ _ (show '(' ≠ m.char by cases m <;> decide)] at h ⊢
  rcases hb : a.drop n with - | ⟨c, b⟩
  · rfl
  have hlen : b.length + 1 = a.length - n := by
    rw [← List.length_drop, hb, List.length_cons]
  simp only [hb, List.cons_append, List.tail_cons, startsQuoted_upto,
    takeWhile_upto m b r isSpace hspace, takeWhile_upto m b r' isSpace hspace] at h ⊢
  have hlead := (List.takeWhile_prefix (l := b) isSpace).length_le
  rw [List.drop_append_of_le_length hlead] at h ⊢
  rw [List.drop_append_of_le_length hlead]
  split_ifs at h ⊢
  · rw [urlLength_upto m _ r r' .body 0 (by rw [List.length_drop]; simp only at h; omega)]
  · rfl
  · rfl

/-- What a scanner finds is settled as soon as it finds no more than `n` characters. -/
def Settled (n : Nat) (f : List Char → Kind × Nat) : Prop := ∀ r r', (f r).2 ≤ n → f r' = f r

theorem settled_const {n : Nat} (x : Kind × Nat) : Settled n fun _ => x := fun _ _ _ => rfl

theorem Settled.ite {n : Nat} {f g : List Char → Kind × Nat} {p : Prop} [Decidable p]
    (hf : p → Settled n f) (hg : ¬p → Settled n g) : Settled n fun r => if p then f r else g r := by
  intro r r' h
  by_cases hp : p
  · simp only [if_pos hp] at h ⊢
    exact hf hp r r' h
  · simp only [if_neg hp] at h ⊢
    exact hg hp r r' h

/-- The first token before a mark does not depend on what follows the mark, if it ends there. -/
theorem settled_scan (c : Char) :
    Settled (a.length + 1) fun r => scan (c :: (a ++ m.char :: r)) := by
  have hspace : isSpace m.char = false := by cases m <;> rfl
  have hname : isNameChar m.char = false := by cases m <;> rfl
  have harrow := fun r => prefix_upto m a r (p := ['-', '>']) (by cases m <;> decide)
  have hstar := fun r => prefix_upto m a r (p := ['*']) (by cases m <;> decide)
  have hbang := fun r => prefix_upto m a r (p := ['!', '-', '-']) (by cases m <;> decide)
  have hident : ∀ r, startsIdent (c :: (a ++ m.char :: r)) = startsIdent (c :: a) :=
    startsIdent_upto m (c :: a)
  have hnumber : ∀ r, startsNumber (c :: (a ++ m.char :: r)) = startsNumber (c :: a) :=
    startsNumber_upto m (c :: a)
  simp only [scan_cons, takeWhile_upto m a _ isSpace hspace, startsIdent_upto m a,
    any_head?_upto m a _ hname, startsNumber_upto m a, harrow, hstar, hbang, hident, hnumber]
  have identifier : Settled (a.length + 1) fun r => identLike (c :: (a ++ m.char :: r)) :=
    fun r r' h => identLike_upto m (c :: a) r r' h
  have number : Settled (a.length + 1) fun r => (.other, 1 + numberLength (a ++ m.char :: r)) :=
    fun r r' h => by
      simp only at h ⊢
      rw [numberLength_upto m a r r' (by omega)]
  have string : ∀ quote, quote = '"' ∨ quote = '\'' →
      Settled (a.length + 1) fun r => (.other, 1 + stringLength quote 0 (a ++ m.char :: r)) :=
    fun quote hq r r' h => by
      simp only at h ⊢
      rw [stringLength_upto m a r r' quote hq 0 (by omega)]
  have hash : Settled (a.length + 1) fun r => (.other, 1 + nameLength 0 (a ++ m.char :: r)) :=
    fun r r' h => by
      simp only at h ⊢
      rw [nameLength_upto m a r r' 0 (by omega)]
  have comment : ['*'] <+: a → Settled (a.length + 1) fun r =>
      (.comment, 2 + commentLength (a ++ m.char :: r).tail) := by
    rintro ⟨a, rfl⟩ r r' h
    simp only [List.cons_append, List.nil_append, List.tail_cons, List.length_cons] at h ⊢
    rw [commentLength_upto m a r r' (by omega)]
  have atKeyword : Settled (a.length + 1) fun r =>
      (.atKeyword (unescape 0 ((a ++ m.char :: r).take (nameLength 0 (a ++ m.char :: r)))),
        1 + nameLength 0 (a ++ m.char :: r)) := fun r r' h => by
    have hn : nameLength 0 (a ++ m.char :: r) ≤ a.length := by simp only at h; omega
    simp only [nameLength_upto m a r r' 0 hn, List.take_append_of_le_length hn]
  have plainNumber :
      Settled (a.length + 1) fun r => (.other, numberLength (c :: (a ++ m.char :: r))) :=
    fun r r' h => by
      have hn := numberLength_upto m (c :: a) r r' h
      simp only [List.cons_append] at hn ⊢
      rw [hn]
  -- the cases of `scan_cons`: each is constant or one of the scanners above
  repeat' first
    | exact settled_const _
    | exact string _ (.inl rfl)
    | exact string _ (.inr rfl)
    | exact comment (And.right ‹_›)
    | assumption
    | refine .ite (fun _ => ?_) fun _ => ?_

/-- **A token that ends before a mark is the same whatever follows the mark.** -/
theorem scan_upto (c : Char) (h : (scan (c :: (a ++ m.char :: r))).2 ≤ a.length + 1) :
    scan (c :: (a ++ m.char :: r')) = scan (c :: (a ++ m.char :: r)) :=
  settled_scan m a c r r' h

end Upto

end Token

end CustomElements.Style
