import CustomElements.Proofs.Style.Scanning

/-!
# Tokens and the text they were cut from

The token list of a text can be taken apart where the text can. Behind any token the rest of the
list is the list of the rest of the text (`Token.eq_tokens_of_append`), and in front of a mark the
list is the same whatever follows (`Token.tokens_resume`). A name that is written without escapes is
one token in front of what cannot go on with it.
-/

namespace CustomElements.Style

namespace Token

/-! ## The tokens of a text -/

theorem tokensWith_eq {fuel : Nat} {cs : List Char} (h : cs.length ≤ fuel) :
    tokensWith fuel cs = tokens cs := by
  induction fuel using Nat.strongRecOn generalizing cs with
  | ind fuel ih =>
      match fuel, cs with
      | 0, [] => rfl
      | fuel + 1, [] => rfl
      | fuel + 1, c :: rest =>
          have hlen : (next c rest).2.length ≤ rest.length := by
            simp only [next, List.length_drop]
            omega
          rw [List.length_cons] at h
          have h1 : tokensWith fuel (next c rest).2 = tokens (next c rest).2 :=
            ih fuel (by omega) (by omega)
          have h2 : tokensWith rest.length (next c rest).2 = tokens (next c rest).2 :=
            ih rest.length (by omega) hlen
          change (next c rest).1 :: tokensWith fuel (next c rest).2 =
            (next c rest).1 :: tokensWith rest.length (next c rest).2
          rw [h1, h2]

@[simp] theorem tokens_nil : tokens [] = [] := rfl

theorem tokens_cons (c : Char) (rest : List Char) :
    tokens (c :: rest) = (next c rest).1 :: tokens (next c rest).2 := by
  have hlen : (next c rest).2.length ≤ rest.length := by
    simp only [next, List.length_drop]
    omega
  rw [← tokensWith_eq hlen]
  rfl

/-- A tokenized text can be taken up again behind any of its tokens. -/
theorem eq_tokens_of_append {cs : List Char} {ts us : List Token} (h : tokens cs = ts ++ us) :
    us = tokens (textOf us) := by
  induction ts generalizing cs with
  | nil =>
      rw [List.nil_append] at h
      rw [← h, textOf_tokens]
  | cons t ts ih =>
      cases cs with
      | nil => simp at h
      | cons c rest =>
          rw [tokens_cons, List.cons_append, List.cons.injEq] at h
          exact ih h.2

theorem tokens_mark (m : Mark) (r : List Char) : tokens (m.char :: r) = m.token :: tokens r := by
  rw [tokens_cons]
  cases m <;> rfl

/-- **What precedes a mark is cut into the same tokens whatever follows it**, if a token begins
with the mark. -/
theorem tokens_resume (m : Mark) {a r : List Char} {ts us : List Token}
    (h : tokens (a ++ m.char :: r) = ts ++ us) (hts : textOf ts = a) (r' : List Char) :
    tokens (a ++ m.char :: r') = ts ++ m.token :: tokens r' := by
  induction ts generalizing a with
  | nil =>
      rw [← hts]
      exact tokens_mark m r'
  | cons t ts ih =>
      cases a with
      | nil =>
          rw [List.nil_append, tokens_mark, List.cons_append, List.cons.injEq] at h
          rw [← h.1] at hts
          simp [textOf, Mark.token] at hts
      | cons c a =>
          rw [List.cons_append, tokens_cons, List.cons_append, List.cons.injEq] at h
          obtain ⟨ht, hrest⟩ := h
          -- the first token ends before the mark, so it is found again whatever follows
          have hn : (scan (c :: (a ++ m.char :: r))).2 - 1 ≤ a.length := by
            have hlen := congrArg List.length hts
            simp only [textOf, List.flatMap_cons, ← ht, next, List.length_append, List.length_cons,
              List.length_take] at hlen
            omega
          have hscan := scan_upto m a r r' c (by omega)
          simp only [next] at ht hrest
          generalize (scan (c :: (a ++ m.char :: r))) = kn at ht hrest hn hscan
          have hstep : next c (a ++ m.char :: r') = (t, a.drop (kn.2 - 1) ++ m.char :: r') := by
            rw [next, hscan, ← ht]
            simp only [List.take_append_of_le_length hn, List.drop_append_of_le_length hn]
          rw [List.take_append_of_le_length hn] at ht
          rw [List.drop_append_of_le_length hn] at hrest
          have htail : textOf ts = a.drop (kn.2 - 1) := by
            simp only [textOf, List.flatMap_cons, ← ht, List.cons_append, List.cons.injEq,
              true_and] at hts
            rw [textOf, List.append_cancel_left (hts.trans (List.take_append_drop _ a).symm)]
          rw [List.cons_append, tokens_cons, hstep, ih hrest htail, List.cons_append]

/-! ## Names -/

/-- A name that is written as it is: it needs no escapes, and has none. -/
def isPlainName (name : List Char) : Bool :=
  startsIdent name && name.all fun c => isNameChar c && c != '\x00'

theorem length_plainName {name : List Char} {d : Char}
    (h : ∀ c ∈ name, isNameChar c = true) (hd : isNameChar d = false) (hback : d ≠ '\\')
    (rest : List Char) :
    nameLength 0 (name ++ d :: rest) = name.length := by
  induction name with
  | nil => simp [nameLength, hd, hback]
  | cons c name ih =>
      rw [List.cons_append, nameLength, if_pos (h c List.mem_cons_self),
        ih fun x hx => h x (List.mem_cons_of_mem c hx), List.length_cons, Nat.add_comm]

theorem unescape_plainName {name : List Char}
    (h : ∀ c ∈ name, isNameChar c = true ∧ c ≠ '\x00') : unescape 0 name = name := by
  induction name with
  | nil => rfl
  | cons c name ih =>
      have hc := h c List.mem_cons_self
      have hback : c ≠ '\\' := by rintro rfl; exact absurd hc.1 (by decide)
      simp [unescape, hback, hc.2, ih fun x hx => h x (List.mem_cons_of_mem c hx)]

section PlainName

variable {name : List Char}

theorem isNameChar_of_isNameStart {c : Char} (h : isNameStart c = true) : isNameChar c = true := by
  simp only [isNameStart, isNameChar, Char.isAlphanum, Bool.or_eq_true] at h ⊢
  tauto

theorem mem_plainName (h : isPlainName name = true) {c : Char} (hc : c ∈ name) :
    isNameChar c = true ∧ c ≠ '\x00' := by
  simp only [isPlainName, Bool.and_eq_true, List.all_eq_true, bne_iff_ne] at h
  exact h.2 c hc

theorem startsIdent_append (h : isPlainName name = true) (rest : List Char) :
    startsIdent (name ++ rest) = true := by
  have hident : startsIdent name = true := (Bool.and_eq_true_iff.mp h).1
  cases name with
  | nil => exact absurd hident (by decide)
  | cons c name =>
      have hback : c ≠ '\\' := by
        rintro rfl
        exact absurd (mem_plainName h List.mem_cons_self).1 (by decide)
      rw [startsIdent_cons, if_neg hback] at hident
      rw [List.cons_append, startsIdent_cons, if_neg hback]
      split_ifs at hident ⊢
      · -- a dash is not all of the name
        cases name with
        | nil => exact absurd hident (by decide)
        | cons d name => exact hident
      · exact hident

/-- A plain at-keyword is one token before a character that cannot go on with the name. -/
theorem tokens_atKeyword (h : isPlainName name = true) {d : Char} (hd : isNameChar d = false)
    (hback : d ≠ '\\') (rest : List Char) :
    tokens ('@' :: (name ++ d :: rest)) =
      ⟨.atKeyword name, '@' :: name⟩ :: tokens (d :: rest) := by
  have hlen := length_plainName (fun c hc => (mem_plainName h hc).1) hd hback rest
  have hscan : scan ('@' :: (name ++ d :: rest)) = (.atKeyword name, 1 + name.length) := by
    change (if startsIdent (name ++ d :: rest) then _ else _) = _
    rw [if_pos (startsIdent_append h _)]
    simp only [hlen, List.take_left, unescape_plainName fun c hc => mem_plainName h hc]
  rw [tokens_cons, next, hscan]
  simp

theorem isDigit_of_isNameStart {c : Char} (h : isNameStart c = true) : c.isDigit = false := by
  by_contra hdigit
  rw [Bool.not_eq_false] at hdigit
  have halpha : c.isAlpha = (decide ('A'.val ≤ c.val ∧ c.val ≤ 'Z'.val) ||
      ('a'.val ≤ c.val && c.val ≤ 'z'.val)) := rfl
  simp only [isNameStart, halpha, Char.isDigit, Bool.or_eq_true, Bool.and_eq_true,
    decide_eq_true_eq, beq_iff_eq, Char.toNat, ge_iff_le, UInt32.le_iff_toNat_le] at h hdigit
  have hnine : '9'.val.toNat = 57 := rfl
  have hupper : 'A'.val.toNat = 65 := rfl
  have hlower : 'a'.val.toNat = 97 := rfl
  rcases h with (((h | h) | rfl) | rfl) | h
  · omega
  · omega
  · exact absurd hdigit (by decide)
  · exact absurd hdigit (by decide)
  · omega

theorem scan_plainName (h : isPlainName name = true) (rest : List Char) :
    scan (name ++ ':' :: rest) = identLike (name ++ ':' :: rest) := by
  have hstart : startsIdent (name ++ ':' :: rest) = true := startsIdent_append h _
  have hident : startsIdent name = true := (Bool.and_eq_true_iff.mp h).1
  cases name with
  | nil => exact absurd hident (by decide)
  | cons c name =>
      have hback : c ≠ '\\' := by
        rintro rfl
        exact absurd (mem_plainName h List.mem_cons_self).1 (by decide)
      rw [List.cons_append] at hstart ⊢
      rw [startsIdent_cons, if_neg hback] at hident
      rw [scan_cons]
      -- a dash might also begin a number or the end of a comment, other characters nothing else
      split_ifs at hident with hdash
      · subst hdash
        cases name with
        | nil => exact absurd hident (by decide)
        | cons d name =>
            have hmarker : ¬['-', '>'] <+: d :: (name ++ ':' :: rest) := by
              cases name with
              | nil => simp [List.cons_prefix_cons]
              | cons e name =>
                  have he : '>' ≠ e := by
                    rintro rfl
                    exact absurd (mem_plainName h (.tail _ (.tail _ (.head _)))).1 (by decide)
                  simp [List.cons_prefix_cons, he]
            have hnumber : startsNumber (d :: (name ++ ':' :: rest)) = false := by
              have hd : isNameStart d = true ∨ d = '-' ∨ d = '\\' := by
                simpa [or_assoc] using hident
              rcases hd with hd | rfl | rfl
              · have hdot : d ≠ '.' := by
                  rintro rfl
                  exact absurd hd (by decide)
                rw [startsNumber_cons, if_neg hdot, isDigit_of_isNameStart hd]
              · rfl
              · rfl
            rw [List.cons_append] at hstart ⊢
            simp [isSpace, isNewline, hmarker, hnumber, hstart]
      · have hne : ∀ x, isNameStart x = false → c ≠ x := by
          rintro x hx rfl
          rw [hx] at hident
          exact absurd hident (by decide)
        have hnumber : startsNumber (c :: (name ++ ':' :: rest)) = false := by
          rw [startsNumber_cons, if_neg (hne '.' (by decide)), isDigit_of_isNameStart hident]
        have hspace : isSpace c = false := by
          simp [isSpace, isNewline, hne ' ' (by decide), hne '\t' (by decide), hne '\n' (by decide),
            hne '\r' (by decide), hne '\x0c' (by decide)]
        simp [hspace, hnumber, hstart, hdash, hne '"' (by decide), hne '\'' (by decide),
          hne '#' (by decide), hne '(' (by decide), hne ')' (by decide), hne '[' (by decide),
          hne ']' (by decide), hne '\x7b' (by decide), hne '\x7d' (by decide), hne ',' (by decide),
          hne ':' (by decide), hne ';' (by decide), hne '+' (by decide), hne '/' (by decide),
          hne '<' (by decide), hne '@' (by decide)]

theorem tokens_colon (rest : List Char) :
    tokens (':' :: rest) = ⟨.colon, [':']⟩ :: tokens rest := by
  rw [tokens_cons]
  rfl

/-- A plain name before a colon is one token. -/
theorem tokens_ident (h : isPlainName name = true) (rest : List Char) :
    tokens (name ++ ':' :: rest) = ⟨.ident name, name⟩ :: ⟨.colon, [':']⟩ :: tokens rest := by
  have hlen := length_plainName (fun c hc => (mem_plainName h hc).1)
    (show isNameChar ':' = false by decide) (by decide) rest
  have hround : ¬(':' :: rest).head? = some '(' := by simp
  have hscan : scan (name ++ ':' :: rest) = (.ident name, name.length) := by
    rw [scan_plainName h, identLike_eq, hlen, List.drop_left, List.take_left, if_neg hround,
      unescape_plainName fun c hc => mem_plainName h hc]
  cases name with
  | nil => exact absurd h (by decide)
  | cons c name =>
      rw [List.cons_append] at hscan ⊢
      rw [tokens_cons, next, hscan, ← tokens_colon]
      simp

end PlainName

theorem tokens_blank {w : List Char} (hw : ∀ c ∈ w, isSpace c = true) (hne : w ≠ [])
    {rest : List Char} (hrest : rest.head?.any isSpace = false) :
    tokens (w ++ rest) = ⟨.blank, w⟩ :: tokens rest := by
  cases w with
  | nil => exact absurd rfl hne
  | cons c w =>
      have htake : (w ++ rest).takeWhile isSpace = w := by
        rw [List.takeWhile_append_of_pos fun x hx => hw x (List.mem_cons_of_mem c hx)]
        cases rest with
        | nil => simp
        | cons d rest => simp only [List.head?_cons, Option.any_some] at hrest; simp [hrest]
      have hscan : scan (c :: (w ++ rest)) = (.blank, 1 + w.length) := by
        rw [scan_cons, if_pos (hw c List.mem_cons_self), htake]
      rw [List.cons_append, tokens_cons, next, hscan]
      simp

end Token

end CustomElements.Style
