import CustomElements.Proofs.Style.Losses

/-!
# Where the pieces of a sheet come from

A parsed sheet is made of pieces: selectors, names, values, preambles and blocks. All of them but
the names stand in the stylesheet as they are. A name is what a token was written for, and shows a
character that may not stand in names only if the token was written with an escape
(`sourced_of_parse`).
-/

namespace CustomElements.Style

/-! ## Pieces -/

/-- The name and the value. -/
def Declaration.pieces (d : Declaration) : List String := [d.name, d.value]

mutual

/-- The texts that a rule is made of. -/
def Rule.pieces : Rule → List String
  | .style selectors declarations => selectors ++ declarations.flatMap Declaration.pieces
  | .group name preamble rules => name :: preamble :: Rule.piecesList rules
  | .verbatim name preamble block => name :: preamble :: block.toList

/-- The texts that rules are made of. -/
def Rule.piecesList : List Rule → List String
  | [] => []
  | r :: rest => r.pieces ++ Rule.piecesList rest

end

/-- The texts that a sheet is made of. -/
def Sheet.pieces (s : Sheet) : List String := Rule.piecesList s.rules

/-! ## Names -/

namespace Token

theorem langle_notMem_unescape {cs : List Char} (h : '\\' ∉ cs.take (nameLength 0 cs)) :
    '<' ∉ unescape 0 (cs.take (nameLength 0 cs)) := by
  induction cs with
  | nil => exact List.not_mem_nil
  | cons c cs ih =>
      rw [nameLength] at h ⊢
      by_cases hc : isNameChar c = true
      · rw [if_pos hc, Nat.add_comm, List.take_succ_cons] at h ⊢
        obtain ⟨hback, hcs⟩ := List.ne_and_not_mem_of_not_mem_cons h
        have hlangle : '<' ≠ if (c == '\x00') = true then '\uFFFD' else c := by
          split_ifs
          · decide
          · rintro rfl
            exact absurd hc (by decide)
        rw [unescape, if_neg (by simpa using Ne.symm hback)]
        exact List.not_mem_cons_of_ne_of_not_mem hlangle (ih hcs)
      · rw [if_neg hc] at h ⊢
        split_ifs at h ⊢ with hback
        · rw [Bool.and_eq_true, beq_iff_eq] at hback
          rw [hback.1, Nat.add_comm, List.take_succ_cons] at h
          exact absurd List.mem_cons_self h
        · exact List.not_mem_nil

/-- A name shows the character that begins a tag only if it is written with an escape. -/
def EscapesLangle (t : Token) : Prop :=
  ∀ name, t.kind = .ident name ∨ t.kind = .atKeyword name → '<' ∈ name → '\\' ∈ t.text

theorem escapesLangle_nameless {t : Token}
    (h : ∀ name, t.kind ≠ .ident name ∧ t.kind ≠ .atKeyword name) : t.EscapesLangle :=
  fun name hname => absurd hname (not_or.mpr (h name))

theorem escapesLangle_identLike (c : Char) (rest : List Char)
    (hstart : startsIdent (c :: rest) = true) :
    (found c rest (identLike (c :: rest))).EscapesLangle := by
  rw [identLike_eq]
  split_ifs
  · exact escapesLangle_nameless (by simp [found])
  · exact escapesLangle_nameless (by simp [found])
  · obtain ⟨k, hk⟩ := Nat.exists_eq_add_of_le' (nameLength_pos hstart)
    have htext : c :: rest.take (nameLength 0 (c :: rest) - 1) =
        (c :: rest).take (nameLength 0 (c :: rest)) := by
      rw [hk, List.take_succ_cons, Nat.add_sub_cancel]
    rintro name (hname | hname) hlangle <;> cases hname
    by_contra hback
    simp only [found, htext] at hback
    exact langle_notMem_unescape hback hlangle

theorem escapesLangle_atKeyword (c : Char) (rest : List Char) :
    (found c rest (.atKeyword (unescape 0 (rest.take (nameLength 0 rest))),
      1 + nameLength 0 rest)).EscapesLangle := by
  rintro name (hname | hname) hlangle <;> cases hname
  by_contra hback
  rw [found, Nat.add_sub_cancel_left] at hback
  exact langle_notMem_unescape (List.not_mem_of_not_mem_cons hback) hlangle

theorem escapesLangle_next (c : Char) (rest : List Char) : (next c rest).1.EscapesLangle := by
  change (found c rest (scan (c :: rest))).EscapesLangle
  rw [scan_cons]
  repeat' first
    | refine found_ite (fun _ => ?_) fun _ => ?_
    | exact escapesLangle_identLike c rest ‹_›
    | exact escapesLangle_atKeyword c rest
    | exact escapesLangle_nameless (by simp [found])

end Token

/-! ## Sources -/

/-- The piece stands in the tokens' text, or is the name that one of them was written for. -/
def Sourced (ts : List Token) (piece : String) : Prop :=
  piece.toList <:+: Token.textOf ts ∨
    ∃ t ∈ ts, t.kind = .ident piece.toList ∨ t.kind = .atKeyword piece.toList

variable {ts us : List Token} {piece : String}

theorem textOf_mono (h : us <:+: ts) : Token.textOf us <:+: Token.textOf ts := by
  obtain ⟨before, after, rfl⟩ := h
  exact ⟨Token.textOf before, Token.textOf after, by simp [Token.textOf]⟩

theorem Sourced.mono (h : Sourced us piece) (hus : us <:+: ts) : Sourced ts piece := by
  rcases h with h | ⟨t, ht, hname⟩
  · exact .inl (h.trans (textOf_mono hus))
  · exact .inr ⟨t, hus.subset ht, hname⟩

theorem sourced_trimmedText (h : us <:+: ts) : Sourced ts (trimmedText us) := by
  obtain ⟨before, after, -, -, heq⟩ := exists_trim (Token.textOf us)
  have htrim : Text.trim (Token.textOf us) <:+: Token.textOf us :=
    ⟨before, after, by rw [List.append_assoc]; exact heq.symm⟩
  refine .inl (List.IsInfix.trans ?_ (textOf_mono h))
  rwa [trimmedText, String.toList_ofList]

theorem sourced_selectorText (h : us <:+: ts) : Sourced ts (selectorText us) :=
  sourced_trimmedText ((List.dropWhile_suffix _).isInfix.trans h)

theorem prefix_of_cut {stop : Token.Kind → Bool} {before after : List Token}
    (hcut : cut stop ts = (before, after)) : before <+: ts := by
  have := cut_append stop ts
  rw [hcut] at this
  exact ⟨after, this⟩

theorem sourced_selectorTexts {fuel offset : Nat} {texts : List String}
    (h : selectorTexts offset (commaParts fuel ts) = .ok texts) : ∀ s ∈ texts, Sourced ts s := by
  induction fuel generalizing ts texts with
  | zero =>
      obtain ⟨-, others, hothers, rfl⟩ := selectorTexts_cons h
      cases hothers
      exact List.forall_mem_singleton.mpr (sourced_selectorText List.infix_rfl)
  | succ fuel ih =>
      rw [commaParts] at h
      rcases hcut : cut (· == .comma) ts with ⟨part, - | ⟨comma, rest⟩⟩ <;> rw [hcut] at h <;>
        obtain ⟨-, others, hothers, rfl⟩ := selectorTexts_cons h
      · cases hothers
        exact List.forall_mem_singleton.mpr (sourced_selectorText (prefix_of_cut hcut).isInfix)
      · have hrest : rest <:+: ts :=
          ((List.suffix_cons comma rest).trans (suffix_of_cut hcut)).isInfix
        exact List.forall_mem_cons.mpr ⟨sourced_selectorText (prefix_of_cut hcut).isInfix,
          fun s hs => (ih hothers s hs).mono hrest⟩

theorem sourced_declaration? {t : Token} {name : List Char} (ht : t.kind = .ident name)
    {body : List Token} {d : Declaration} (hd : declaration? name body = some d) :
    ∀ p ∈ d.pieces, Sourced (t :: body) p := by
  obtain ⟨colon, value, hdrop, -, -, rfl⟩ := declaration?_eq_some hd
  have hvalue : value <:+ body :=
    (List.suffix_cons colon value).trans (hdrop ▸ List.dropWhile_suffix _)
  refine List.forall_mem_cons.mpr ⟨.inr ⟨t, List.mem_cons_self, ?_⟩,
    List.forall_mem_singleton.mpr
      (sourced_trimmedText (hvalue.trans (List.suffix_cons t body)).isInfix)⟩
  rw [String.toList_ofList]
  exact .inl ht

theorem sourced_declarations (fuel : Nat) (ts : List Token) :
    ∀ p ∈ (declarations fuel ts).flatMap Declaration.pieces, Sourced ts p := by
  induction fuel generalizing ts with
  | zero => exact fun p hp => absurd hp List.not_mem_nil
  | succ fuel ih =>
      cases ts with
      | nil => exact fun p hp => absurd hp List.not_mem_nil
      | cons t rest =>
          by_cases ht : ∃ name, t.kind = .ident name
          · obtain ⟨name, ht⟩ := ht
            rcases hcut : cut (· == .semicolon) rest with ⟨body, after⟩
            rw [declarations_ident fuel ht, hcut, List.flatMap_append]
            refine List.forall_mem_append.mpr ⟨fun p hp => ?_, fun p hp => ?_⟩
            · obtain ⟨d, hd, hp⟩ := List.mem_flatMap.mp hp
              have hbody : t :: body <:+: t :: rest :=
                (List.prefix_cons_inj t |>.mpr (prefix_of_cut hcut)).isInfix
              exact (sourced_declaration? ht (Option.mem_toList.mp hd) p hp).mono hbody
            · have hafter : after.tail <:+ t :: rest :=
                ((List.tail_suffix after).trans (suffix_of_cut hcut)).trans
                  (List.suffix_cons t rest)
              exact (ih after.tail p hp).mono hafter.isInfix
          · obtain ⟨us, hus, heq⟩ := declarations_other fuel
              (fun name hname => ht ⟨name, hname⟩) rest
            rw [heq]
            exact fun p hp => (ih us p hp).mono (hus.trans (List.suffix_cons t rest)).isInfix

section Parts

variable {stop : Token.Kind → Bool} {t u : Token} {rest preamble inside block after : List Token}

theorem infix_gap (hgap : ts.dropWhile Token.isGap = t :: rest) : t :: rest <:+: ts :=
  (hgap ▸ List.dropWhile_suffix Token.isGap : t :: rest <:+ ts).isInfix

theorem infix_rest (hgap : ts.dropWhile Token.isGap = t :: rest) : rest <:+: ts :=
  (List.suffix_cons t rest).isInfix.trans (infix_gap hgap)

theorem infix_block (hcut : cut stop ts = (preamble, u :: inside))
    (hblock : cutBlock inside = (block, after)) : block <:+: ts ∧ after.tail <:+: ts := by
  have hinside : inside <:+ ts := (List.suffix_cons u inside).trans (suffix_of_cut hcut)
  exact ⟨(prefix_of_cut hblock).isInfix.trans hinside.isInfix,
    (((List.tail_suffix after).trans (suffix_of_cut hblock)).trans hinside).isInfix⟩

/-- The name and the preamble of an at-rule. -/
theorem sourced_head {name : List Char} (hgap : ts.dropWhile Token.isGap = t :: rest)
    (ht : t.kind = .atKeyword name) (hcut : cut stop rest = (preamble, after)) :
    Sourced ts (String.ofList name) ∧ Sourced ts (trimmedText preamble) := by
  refine ⟨.inr ⟨t, (infix_gap hgap).subset List.mem_cons_self, .inr ?_⟩, ?_⟩
  · rw [ht, String.toList_ofList]
  · exact sourced_trimmedText ((prefix_of_cut hcut).isInfix.trans (infix_rest hgap))

end Parts

theorem sourced_of_reads {first : Bool} {rules : List Rule} (h : Reads first ts rules) :
    ∀ p ∈ Rule.piecesList rules, Sourced ts p := by
  -- each piece is cut from an infix of the tokens, and infixes of infixes are infixes
  induction h with
  | nil hgap => exact fun p hp => absurd hp List.not_mem_nil
  | @charset _ rest t _ _ hgap ht hname hrest ih =>
      have hinfix := (suffix_cutRule ht rest).isInfix.trans (infix_rest hgap)
      exact fun p hp => (ih p hp).mono hinfix
  | @statement _ _ rest _ after t _ _ hgap ht hname hcut hafter hrest ih =>
      obtain ⟨hn, hp⟩ := sourced_head hgap ht hcut
      have hsuffix := (List.tail_suffix after).trans (suffix_of_cut hcut)
      exact List.forall_mem_cons.mpr ⟨hn, List.forall_mem_cons.mpr ⟨hp, fun p hp =>
        (ih p hp).mono (hsuffix.isInfix.trans (infix_rest hgap))⟩⟩
  | @verbatim _ _ rest _ _ _ _ t _ _ _ hgap ht hname hcut hu hblock hgroup hrest ih =>
      obtain ⟨hn, hp⟩ := sourced_head hgap ht hcut
      obtain ⟨hinblock, hinafter⟩ := infix_block hcut hblock
      have hinrest := infix_rest hgap
      exact List.forall_mem_cons.mpr ⟨hn, List.forall_mem_cons.mpr ⟨hp, List.forall_mem_cons.mpr
        ⟨sourced_trimmedText (hinblock.trans hinrest),
          fun p hp => (ih p hp).mono (hinafter.trans hinrest)⟩⟩⟩
  | @group _ _ rest _ _ _ _ t _ _ _ _ hgap ht hname hcut hu hblock hgroup hinner hrest ihinner ih =>
      obtain ⟨hn, hp⟩ := sourced_head hgap ht hcut
      obtain ⟨hinblock, hinafter⟩ := infix_block hcut hblock
      have hinrest := infix_rest hgap
      refine List.forall_mem_append.mpr ⟨List.forall_mem_cons.mpr ⟨hn, List.forall_mem_cons.mpr
        ⟨hp, fun p hp => (ihinner p hp).mono (hinblock.trans hinrest)⟩⟩,
          fun p hp => (ih p hp).mono (hinafter.trans hinrest)⟩
  | @style _ _ _ _ _ block _ _ _ _ _ hgap ht hcut hblock htexts hrest ih =>
      obtain ⟨hinblock, hinafter⟩ := infix_block hcut hblock
      have hselectors := sourced_selectorTexts htexts
      refine List.forall_mem_append.mpr ⟨List.forall_mem_append.mpr
        ⟨fun p hp => ?_, fun p hp => ?_⟩,
          fun p hp => (ih p hp).mono (hinafter.trans (infix_gap hgap))⟩
      · exact (hselectors p hp).mono ((prefix_of_cut hcut).isInfix.trans (infix_gap hgap))
      · exact (sourced_declarations block.length block p hp).mono
          (hinblock.trans (infix_gap hgap))

/--
**Every piece of a sheet stands in the stylesheet**, or it is a name without the character that
begins a tag, or the stylesheet has escapes.
-/
theorem sourced_of_parse {css : String} {sheet : Sheet} (h : Sheet.parse css = .ok sheet) :
    ∀ p ∈ sheet.pieces, p.toList <:+: css.toList ∨ '<' ∉ p.toList ∨ '\\' ∈ css.toList := by
  intro p hp
  have htext := Token.textOf_tokens css.toList
  rcases sourced_of_reads (parse_eq_ok.mp h) p hp with hin | ⟨t, ht, hname⟩
  · exact .inl (htext ▸ hin)
  · by_cases hlangle : '<' ∈ p.toList
    · have hback := Token.of_mem_tokens Token.escapesLangle_next ht _ hname hlangle
      refine .inr (.inr ?_)
      rw [← htext]
      exact List.mem_flatMap.mpr ⟨t, ht, hback⟩
    · exact .inr (.inl hlangle)

end CustomElements.Style
