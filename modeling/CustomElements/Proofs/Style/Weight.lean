import CustomElements.Proofs.Style.Tokens
import CustomElements.Style.Parser

/-!
# The weight of a text

To show that nothing was lost between two texts it is enough to count. White space, and the marks
that only end something, are set by the printer as it likes and have no weight. Every other
character has. A name weighs no more than the token it was read from, and as much only if it was
written without escapes (`Token.Sound`).
-/

namespace CustomElements.Style

/-- The character counts: it is neither white space nor a mark that only ends something. -/
def weighs (c : Char) : Bool := !Text.isBlank c && c != ';' && c != '\x7d'

/-- The number of characters that count. -/
def weight (cs : List Char) : Nat := cs.countP weighs

theorem weight_append (cs ds : List Char) : weight (cs ++ ds) = weight cs + weight ds :=
  List.countP_append

theorem weight_cons (c : Char) (cs : List Char) : weight (c :: cs) = weight [c] + weight cs :=
  weight_append [c] cs

theorem weight_singleton_le (c : Char) : weight [c] ≤ 1 := List.countP_le_length

theorem weight_blank {cs : List Char} (h : ∀ c ∈ cs, Text.isBlank c = true) : weight cs = 0 :=
  List.countP_eq_zero.mpr fun c hc => by simp [weighs, h c hc]

namespace Token

theorem weighs_of_hexVal? {c : Char} {v : Nat} (h : hexVal? c = some v) : weighs c = true := by
  have hrange : 48 ≤ c.toNat ∧ c.toNat ≤ 57 ∨ 97 ≤ c.toNat ∧ c.toNat ≤ 102 ∨
      65 ≤ c.toNat ∧ c.toNat ≤ 70 := by
    unfold hexVal? at h
    split_ifs at h with hdigit hlower hupper
    · simp only [Char.isDigit, Bool.and_eq_true, decide_eq_true_eq, ge_iff_le,
        UInt32.le_iff_toNat_le] at hdigit
      exact .inl hdigit
    · exact .inr (.inl ⟨UInt32.le_iff_toNat_le.mp hlower.1, UInt32.le_iff_toNat_le.mp hlower.2⟩)
    · exact .inr (.inr ⟨UInt32.le_iff_toNat_le.mp hupper.1, UInt32.le_iff_toNat_le.mp hupper.2⟩)
  have hsemi : c ≠ ';' := by rintro rfl; revert hrange; decide
  have hcurly : c ≠ '\x7d' := by rintro rfl; revert hrange; decide
  simp only [weighs, Text.isBlank, bne_iff_ne, ne_eq, Bool.and_eq_true, Bool.not_eq_true', hsemi,
    hcurly, not_false_iff, and_true, Bool.or_eq_false_iff, Bool.and_eq_false_iff,
    decide_eq_false_iff_not, beq_eq_false_iff_ne]
  omega

/-- An escape weighs no less than what it stands for, even without its backslash. -/
theorem weight_escapeChar (cs : List Char) (hne : cs ≠ []) :
    weight [escapeChar cs] ≤ weight (cs.take (escapeLength cs)) := by
  cases cs with
  | nil => exact absurd rfl hne
  | cons c rest =>
      cases hhex : hexVal? c with
      -- without a digit the character itself is meant, unless it cannot be shown
      | none =>
          have hdigits : hexDigits 6 (c :: rest) = [] := by rw [hexDigits, hhex]
          have hlen : escapeLength (c :: rest) = 1 := by
            rw [escapeLength_eq, hdigits, List.length_nil, if_pos rfl, List.length_cons]
            omega
          rw [hlen, escapeChar, hdigits]
          by_cases hnul : c = '\x00'
          · subst hnul; exact Nat.le_refl _
          · simp [hnul]
      -- one character stands for all digits, and the first of them has weight
      | some v =>
          have hlen : 1 ≤ escapeLength (c :: rest) := by
            rw [escapeLength_eq, hexDigits, hhex, if_neg (by simp), List.length_cons]
            omega
          obtain ⟨k, hk⟩ := Nat.exists_eq_add_of_le' hlen
          have hc : weight [c] = 1 := by
            rw [weight, List.countP_singleton, weighs_of_hexVal? hhex, if_pos rfl]
          rw [hk, List.take_succ_cons, weight_cons c, hc]
          have := weight_singleton_le (escapeChar (c :: rest))
          omega

/-- What a name shows for a character that is not escaped. -/
def shown (c : Char) : Char := if c == '\x00' then '\uFFFD' else c

theorem weight_shown (c : Char) : weight [shown c] = weight [c] := by
  rw [shown]
  split
  · rename_i hnul
    rw [beq_iff_eq.mp hnul]
    rfl
  · rfl

theorem unescape_cons {c : Char} (hc : c ≠ '\\') (rest : List Char) :
    unescape 0 (c :: rest) = shown c :: unescape 0 rest := by
  rw [unescape, if_neg (by simpa using hc), shown]

theorem weight_unescape_le (taken : Nat) (cs : List Char) :
    weight (unescape taken cs) ≤ weight (cs.drop taken) := by
  induction cs generalizing taken with
  | nil => cases taken <;> exact Nat.le_refl _
  | cons c rest ih =>
      cases taken with
      | succ taken => exact ih taken
      | zero =>
          rw [List.drop_zero]
          -- `taken` counts the characters of an escape, which are passed over one by one
          by_cases hback : c = '\\'
          · subst hback
            rw [unescape, if_pos (by rfl), weight_cons, weight_cons '\\']
            have h1 := weight_singleton_le (escapeChar rest)
            have h2 : weight ['\\'] = 1 := rfl
            have h3 := ih (escapeLength rest)
            have h4 := weight_append (rest.take (escapeLength rest)) (rest.drop (escapeLength rest))
            rw [List.take_append_drop] at h4
            omega
          · have h1 := ih 0
            rw [List.drop_zero] at h1
            rw [unescape_cons hback, weight_cons, weight_cons c, weight_shown]
            omega

/-- A name that weighs as much as its spelling has no escapes but for a backslash at its end. -/
theorem exists_body {cs : List Char} (h : weight cs ≤ weight (unescape 0 cs)) :
    ∃ body, '\\' ∉ body ∧ (cs = body ∨ cs = body ++ ['\\']) := by
  induction cs with
  | nil => exact ⟨[], List.not_mem_nil, .inl rfl⟩
  | cons c rest ih =>
      by_cases hback : c = '\\'
      · subst hback
        cases rest with
        | nil => exact ⟨[], List.not_mem_nil, .inr rfl⟩
        | cons d rest =>
          -- the backslash has weight, and what it escapes does not make up for it
          exfalso
          have h1 := weight_escapeChar (d :: rest) (by simp)
          have h2 := weight_unescape_le (escapeLength (d :: rest)) (d :: rest)
          have h3 := weight_append ((d :: rest).take (escapeLength (d :: rest)))
            ((d :: rest).drop (escapeLength (d :: rest)))
          rw [List.take_append_drop] at h3
          rw [unescape, if_pos (by rfl), weight_cons, weight_cons (escapeChar _)] at h
          have h4 : weight ['\\'] = 1 := rfl
          omega
      · rw [unescape_cons hback, weight_cons, weight_cons (shown c), weight_shown] at h
        obtain ⟨body, hbody, hrest⟩ := ih (by omega)
        refine ⟨c :: body, by simp [Ne.symm hback, hbody], ?_⟩
        rcases hrest with rfl | rfl
        · exact .inl rfl
        · exact .inr rfl

theorem isNameChar_of_mem_body {cs body rest : List Char}
    (h : cs.take (nameLength 0 cs) = body ++ rest) (hbody : '\\' ∉ body) :
    ∀ c ∈ body, isNameChar c = true := by
  induction body generalizing cs with
  | nil => intro c hc; exact absurd hc List.not_mem_nil
  | cons d body ih =>
      rw [List.mem_cons, not_or] at hbody
      cases cs with
      | nil => simp at h
      | cons c cs =>
          rw [nameLength] at h
          split_ifs at h with hname hback
          · rw [Nat.add_comm, List.take_succ_cons, List.cons_append, List.cons.injEq] at h
            obtain ⟨rfl, h⟩ := h
            intro x hx
            rcases List.mem_cons.mp hx with rfl | hx
            · exact hname
            · exact ih h hbody.2 x hx
          · rw [Nat.add_comm, List.take_succ_cons, List.cons_append, List.cons.injEq] at h
            rw [Bool.and_eq_true, beq_iff_eq, h.1] at hback
            exact absurd hback.1.symm hbody.1
          · simp at h

theorem unescape_body {body : List Char} (hbody : '\\' ∉ body) (rest : List Char) :
    unescape 0 (body ++ rest) = body.map shown ++ unescape 0 rest := by
  induction body with
  | nil => rfl
  | cons c body ih =>
      rw [List.mem_cons, not_or] at hbody
      rw [List.cons_append, unescape_cons (Ne.symm hbody.1), ih hbody.2, List.map_cons,
        List.cons_append]

theorem isNameChar_shown {c : Char} (h : isNameChar c = true) :
    isNameChar (shown c) = true ∧ shown c ≠ '\x00' := by
  rw [shown]
  split
  · decide
  · rename_i hnul
    exact ⟨h, by simpa using hnul⟩

theorem isNameStart_shown {c : Char} (h : isNameStart c = true) : isNameStart (shown c) = true := by
  rw [shown]
  split
  · decide
  · exact h

theorem startsIdent_shown {c : Char} (hdash : c ≠ '-') (h : isNameStart c = true)
    (rest : List Char) : startsIdent (shown c :: rest) = true := by
  have hdash' : shown c ≠ '-' := by
    rw [shown]
    split
    · decide
    · exact hdash
  have hback : shown c ≠ '\\' := by
    intro hc
    have := isNameStart_shown h
    rw [hc] at this
    exact absurd this (by decide)
  rw [startsIdent_cons, if_neg hdash', if_neg hback, isNameStart_shown h]

/-- What a name shows that has no escapes but for a backslash at its end starts a name, too. -/
theorem startsIdent_unescape {c : Char} {rest body tail : List Char} {k : Nat}
    (hstart : startsIdent (c :: rest) = true) (hrest : rest.take k = body ++ tail)
    (hbody : '\\' ∉ c :: body) (htail : tail = [] ∨ tail = ['\\']) :
    startsIdent (unescape 0 (c :: (body ++ tail))) = true ∨
      unescape 0 (c :: (body ++ tail)) = ['-'] := by
  rw [List.mem_cons, not_or] at hbody
  rw [unescape_cons (Ne.symm hbody.1), unescape_body hbody.2]
  rw [startsIdent_cons, if_neg (Ne.symm hbody.1)] at hstart
  split_ifs at hstart with hdash
  · subst hdash
    cases body with
    | nil =>
        -- the backslash at the end shows a character that may follow a dash
        rcases htail with rfl | rfl
        · exact .inr rfl
        · exact .inl (by decide)
    | cons d body =>
        rw [List.mem_cons, not_or] at hbody
        cases rest with
        | nil => simp at hrest
        | cons e rest =>
            cases k with
            | zero => simp at hrest
            | succ k =>
                rw [List.take_succ_cons, List.cons_append, List.cons.injEq] at hrest
                obtain ⟨rfl, -⟩ := hrest
                have he : isNameStart e = true ∨ e = '-' := by
                  simpa [Ne.symm hbody.2.1] using hstart
                refine .inl ?_
                rw [startsIdent_cons, if_pos (by decide)]
                rcases he with he | rfl
                · simp [isNameStart_shown he]
                · rfl
  · exact .inl (startsIdent_shown hdash hstart _)

theorem nameLength_pos {cs : List Char} (h : startsIdent cs = true) : 0 < nameLength 0 cs := by
  cases cs with
  | nil => exact absurd h (by decide)
  | cons c rest =>
      rw [startsIdent_cons] at h
      rw [nameLength]
      split_ifs at h with hdash hback
      · rw [if_pos (by rw [hdash]; decide)]
        omega
      · rw [hback, if_neg (by decide), if_pos (by rw [h]; decide)]
        omega
      · rw [if_pos (isNameChar_of_isNameStart h)]
        omega

/-- A name that weighs as much as its spelling is plain, but for a single dash. -/
theorem plain_of_weight {cs : List Char} (hstart : startsIdent cs = true)
    (h : weight (cs.take (nameLength 0 cs)) ≤ weight (unescape 0 (cs.take (nameLength 0 cs)))) :
    isPlainName (unescape 0 (cs.take (nameLength 0 cs))) = true ∨
      unescape 0 (cs.take (nameLength 0 cs)) = ['-'] := by
  obtain ⟨body, hbody, hcs⟩ := exists_body h
  obtain ⟨tail, htail, hcs⟩ : ∃ tail, (tail = [] ∨ tail = ['\\']) ∧
      cs.take (nameLength 0 cs) = body ++ tail := by
    rcases hcs with hcs | hcs
    · exact ⟨[], .inl rfl, by rw [hcs, List.append_nil]⟩
    · exact ⟨['\\'], .inr rfl, hcs⟩
  have hchars := isNameChar_of_mem_body hcs hbody
  have hall : ∀ c ∈ unescape 0 (cs.take (nameLength 0 cs)), isNameChar c = true ∧ c ≠ '\x00' := by
    rw [hcs, unescape_body hbody]
    intro c hc
    rcases List.mem_append.mp hc with hc | hc
    · obtain ⟨d, hd, rfl⟩ := List.mem_map.mp hc
      exact isNameChar_shown (hchars d hd)
    · rcases htail with rfl | rfl
      · exact absurd hc List.not_mem_nil
      · rw [List.mem_singleton.mp hc]
        decide
  have hall' : (unescape 0 (cs.take (nameLength 0 cs))).all (fun c => isNameChar c && c != '\x00') =
      true := by
    rw [List.all_eq_true]
    intro c hc
    rw [(hall c hc).1, Bool.true_and, bne_iff_ne]
    exact (hall c hc).2
  have hpos := nameLength_pos hstart
  rw [isPlainName, hall', Bool.and_true]
  cases cs with
  | nil => exact absurd hstart (by decide)
  | cons c rest =>
      obtain ⟨k, hk⟩ := Nat.exists_eq_add_of_le' hpos
      rw [hk, List.take_succ_cons] at hcs ⊢
      -- whether it begins as a name is told by the first character, be it that last backslash
      cases body with
      | nil =>
          rw [List.nil_append] at hcs
          rcases htail with rfl | rfl
          · exact absurd hcs (List.cons_ne_nil _ _)
          · rw [hcs]
            exact .inl (by decide)
      | cons d body =>
          rw [List.cons_append, List.cons.injEq] at hcs
          obtain ⟨rfl, hrest⟩ := hcs
          rw [hrest]
          exact startsIdent_unescape hstart hrest hbody htail

/-- What a token's kind says about its text. -/
structure Sound (t : Token) : Prop where
  /-- A name shows no more than is written, and if it shows as much it is written as it is. -/
  ident : ∀ name, t.kind = .ident name → weight name ≤ weight t.text ∧
    (weight t.text ≤ weight name → isPlainName name = true ∨ name = ['-'])
  atKeyword : ∀ name, t.kind = .atKeyword name → weight name + 1 ≤ weight t.text ∧
    (weight t.text ≤ weight name + 1 → isPlainName name = true ∨ name = ['-'])
  colon : t.kind = .colon → t.text = [':']
  mark : ∀ m : Mark, t.kind = m.kind → t.text = [m.char]

theorem sound_inert {t : Token} (h : t.kind ∈ [.blank, .comment, .marker, .openRound, .openSquare,
    .closeRound, .closeSquare, .other]) : t.Sound := by
  refine ⟨?_, ?_, ?_, ?_⟩ <;> intros <;> (try rename_i m hm; cases m) <;> simp_all [Mark.kind]

theorem sound_identLike (c : Char) (rest : List Char) (hstart : startsIdent (c :: rest) = true) :
    Sound ⟨(identLike (c :: rest)).1, c :: rest.take ((identLike (c :: rest)).2 - 1)⟩ := by
  rw [identLike_eq]
  split_ifs
  · exact sound_inert (by simp)
  · exact sound_inert (by simp)
  · refine ⟨fun name hname => ?_, nofun, nofun, fun m hm => by cases m <;> cases hm⟩
    obtain ⟨k, hk⟩ := Nat.exists_eq_add_of_le' (nameLength_pos hstart)
    have htext : c :: rest.take (nameLength 0 (c :: rest) - 1) =
        (c :: rest).take (nameLength 0 (c :: rest)) := by
      rw [hk, List.take_succ_cons, Nat.add_sub_cancel]
    cases hname
    simp only [htext]
    refine ⟨weight_unescape_le 0 _, fun h => plain_of_weight hstart h⟩

/-- The token that a scanner finds at the start of a text, by its kind and its length. -/
def found (c : Char) (rest : List Char) (x : Kind × Nat) : Token := ⟨x.1, c :: rest.take (x.2 - 1)⟩

theorem found_ite {P : Token → Prop} {c : Char} {rest : List Char} {x y : Kind × Nat} {p : Prop}
    [Decidable p] (hx : p → P (found c rest x)) (hy : ¬p → P (found c rest y)) :
    P (found c rest (if p then x else y)) := by
  by_cases hp : p
  · rw [if_pos hp]
    exact hx hp
  · rw [if_neg hp]
    exact hy hp

theorem sound_found_mark (m : Mark) {c : Char} (hc : c = m.char) (rest : List Char) :
    (found c rest (m.kind, 1)).Sound := by
  refine ⟨fun name h => ?_, fun name h => ?_, fun h => ?_, fun m' hm => ?_⟩
  · cases m <;> cases h
  · cases m <;> cases h
  · cases m <;> cases h
  have : m = m' := by cases m <;> cases m' <;> first | rfl | cases hm
  rw [← this, ← hc]
  rfl

theorem sound_found_colon {c : Char} (hc : c = ':') (rest : List Char) :
    (found c rest (.colon, 1)).Sound := by
  refine ⟨nofun, nofun, fun _ => ?_, fun m hm => ?_⟩
  · rw [hc]
    rfl
  · cases m <;> cases hm

theorem sound_found_atKeyword {c : Char} {rest : List Char} (hc : c = '@')
    (hstart : startsIdent rest = true) :
    (found c rest (.atKeyword (unescape 0 (rest.take (nameLength 0 rest))),
      1 + nameLength 0 rest)).Sound := by
  refine ⟨nofun, fun name hname => ?_, nofun, fun m hm => by cases m <;> cases hm⟩
  cases hname
  have hle := weight_unescape_le 0 (rest.take (nameLength 0 rest))
  have hat : weight ['@'] = 1 := rfl
  rw [List.drop_zero] at hle
  rw [found, hc, Nat.add_sub_cancel_left, weight_cons '@', hat]
  exact ⟨by omega, fun h => plain_of_weight hstart (by omega)⟩

theorem sound_next (c : Char) (rest : List Char) : (next c rest).1.Sound := by
  change (found c rest (scan (c :: rest))).Sound
  rw [scan_cons]
  repeat' first
    | refine found_ite (fun _ => ?_) fun _ => ?_
    | exact sound_identLike c rest ‹_›
    | exact sound_found_mark .semicolon ‹_› rest
    | exact sound_found_mark .comma ‹_› rest
    | exact sound_found_mark .openCurly ‹_› rest
    | exact sound_found_mark .closeCurly ‹_› rest
    | exact sound_found_colon ‹_› rest
    | exact sound_found_atKeyword ‹_› ‹_›
    | exact sound_inert (by simp [found])

/-- What holds of every token that a text can begin with holds of the tokens of a text. -/
theorem of_mem_tokens {P : Token → Prop} (hnext : ∀ c rest, P (next c rest).1) {cs : List Char}
    {t : Token} (h : t ∈ tokens cs) : P t := by
  induction hn : cs.length using Nat.strongRecOn generalizing cs with
  | ind n ih =>
      cases cs with
      | nil => exact absurd h List.not_mem_nil
      | cons c rest =>
          rw [tokens_cons] at h
          rcases List.mem_cons.mp h with rfl | h
          · exact hnext c rest
          · refine ih _ ?_ h rfl
            simp only [next, List.length_drop, ← hn, List.length_cons]
            omega

theorem sound_of_mem_tokens {cs : List Char} {t : Token} (h : t ∈ tokens cs) : t.Sound :=
  of_mem_tokens sound_next h

end Token
end CustomElements.Style
