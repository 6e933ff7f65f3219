import CustomElements.Proofs.Style.Tokens
import CustomElements.Style.Parser

/-!
# Cutting at separators

Token lists are cut at the first separator outside all brackets. Tokens that are not cut, and leave
no bracket open, are passed over whatever follows them (`Passes`), and `Ends` says of two lists that
the second begins where the first is cut off. Separators of several kinds cut a list in turns: those
of the inner kind end a part of what the outer kind ends (`Ends.refine`).
-/

namespace CustomElements.Style

variable {stop stop' : Token.Kind → Bool} {pending : List Token.Kind} {ts us : List Token}

/-- The closing brackets still to come behind a token. -/
def pendingAfter (pending : List Token.Kind) (k : Token.Kind) : List Token.Kind :=
  match k.closer? with
  | some closer => closer :: pending
  | none => if pending.head? = some k then pending.tail else pending

theorem cutWithin_cons (stop : Token.Kind → Bool) (pending : List Token.Kind) (t : Token)
    (rest : List Token) : cutWithin stop pending (t :: rest) =
      if pending.isEmpty && stop t.kind then ([], t :: rest)
      else (t :: (cutWithin stop (pendingAfter pending t.kind) rest).1,
        (cutWithin stop (pendingAfter pending t.kind) rest).2) := rfl

theorem cutWithin_append (stop : Token.Kind → Bool) (pending : List Token.Kind) (ts : List Token) :
    (cutWithin stop pending ts).1 ++ (cutWithin stop pending ts).2 = ts := by
  induction ts generalizing pending with
  | nil => rfl
  | cons t ts ih =>
      rw [cutWithin_cons]
      split_ifs
      · rfl
      · rw [List.cons_append, ih]

theorem cut_append (stop : Token.Kind → Bool) (ts : List Token) :
    (cut stop ts).1 ++ (cut stop ts).2 = ts :=
  cutWithin_append stop [] ts

/--
The tokens lead from the closing brackets `pending` back to none, and `stop` accepts none of them
outside all brackets.
-/
def Passes (stop : Token.Kind → Bool) : List Token.Kind → List Token → Prop
  | pending, [] => pending = []
  | pending, t :: ts =>
    (pending.isEmpty && stop t.kind) = false ∧ Passes stop (pendingAfter pending t.kind) ts

theorem Passes.cutWithin (h : Passes stop pending ts) (us : List Token) :
    cutWithin stop pending (ts ++ us) = (ts ++ (cut stop us).1, (cut stop us).2) := by
  induction ts generalizing pending with
  | nil =>
      cases h
      rfl
  | cons t ts ih =>
      rw [List.cons_append, cutWithin_cons, h.1, if_neg Bool.false_ne_true, ih h.2]
      rfl

theorem Passes.cut (h : Passes stop [] ts) (us : List Token) :
    cut stop (ts ++ us) = (ts ++ (cut stop us).1, (cut stop us).2) :=
  h.cutWithin us

/-- Tokens that are passed are cut off before a token that is not. -/
theorem Passes.cut_cons (h : Passes stop [] ts) {u : Token} (hu : stop u.kind = true)
    (us : List Token) : Style.cut stop (ts ++ u :: us) = (ts, u :: us) := by
  rw [h.cut, Style.cut, cutWithin_cons, hu]
  simp

theorem Passes.of_cutWithin {u : Token} {rest : List Token}
    (h : Style.cutWithin stop pending us = (ts, u :: rest)) :
    Passes stop pending ts ∧ stop u.kind = true := by
  induction us generalizing pending ts with
  | nil => simp [Style.cutWithin] at h
  | cons t us ih =>
      rw [cutWithin_cons] at h
      split_ifs at h with hstop
      · rw [Prod.mk.injEq, List.cons.injEq] at h
        obtain ⟨rfl, rfl, rfl⟩ := h
        rw [Bool.and_eq_true, List.isEmpty_iff] at hstop
        exact hstop
      · rw [Prod.mk.injEq] at h
        obtain ⟨rfl, hrest⟩ := h
        have hpasses := ih (Prod.ext rfl hrest)
        exact ⟨⟨Bool.eq_false_iff.mpr hstop, hpasses.1⟩, hpasses.2⟩

theorem Passes.append (h : Passes stop pending ts) (h' : Passes stop [] us) :
    Passes stop pending (ts ++ us) := by
  induction ts generalizing pending with
  | nil =>
      cases h
      exact h'
  | cons t ts ih => exact ⟨h.1, ih h.2⟩

theorem Passes.mono (h : Passes stop pending ts) (hle : ∀ k, stop' k = true → stop k = true) :
    Passes stop' pending ts := by
  induction ts generalizing pending with
  | nil => exact h
  | cons t ts ih =>
      refine ⟨?_, ih h.2⟩
      have hstop := h.1
      rw [Bool.and_eq_false_iff] at hstop ⊢
      refine hstop.imp_right fun hk => Bool.eq_false_iff.mpr fun hk' => ?_
      rw [hle _ hk'] at hk
      cases hk

theorem pendingAfter_append {k : Token.Kind} (pending : List Token.Kind)
    (hk : pending = [] → k ≠ .closeCurly) :
    pendingAfter (pending ++ [.closeCurly]) k = pendingAfter pending k ++ [.closeCurly] := by
  unfold pendingAfter
  cases k.closer? with
  | some closer => rfl
  | none =>
      cases pending with
      | nil => simp [Ne.symm (hk rfl)]
      | cons p pending => by_cases hpk : p = k <;> simp [hpk]

/-- The contents of a block, with its closing brace. -/
theorem Passes.close (h : Passes (· == .closeCurly) pending ts) {u : Token}
    (hu : u.kind = .closeCurly) : Passes stop (pending ++ [.closeCurly]) (ts ++ [u]) := by
  induction ts generalizing pending with
  | nil =>
      cases h
      refine ⟨rfl, ?_⟩
      rw [hu]
      rfl
  | cons t ts ih =>
      have hk : pending = [] → t.kind ≠ .closeCurly := by
        rintro rfl hk
        have := h.1
        simp [hk] at this
      refine ⟨by cases pending <;> rfl, ?_⟩
      rw [pendingAfter_append pending hk]
      exact ih h.2

/-- A block is passed as a whole. -/
theorem Passes.block (h : Passes (· == .closeCurly) [] ts) {o u : Token} (ho : o.kind = .openCurly)
    (hstop : stop .openCurly = false) (hu : u.kind = .closeCurly) :
    Passes stop [] (o :: ts ++ [u]) := by
  refine ⟨?_, ?_⟩
  · rw [ho, hstop, Bool.and_false]
  · rw [ho]
    exact h.close hu

/-- Cutting at two kinds of separators: the second ones only matter before the first one. -/
theorem cutWithin_or (stop stop' : Token.Kind → Bool) (pending : List Token.Kind)
    (ts : List Token) :
    cutWithin (fun k => stop k || stop' k) pending ts =
      ((cutWithin stop' pending (cutWithin stop pending ts).1).1,
        (cutWithin stop' pending (cutWithin stop pending ts).1).2 ++
          (cutWithin stop pending ts).2) := by
  induction ts generalizing pending with
  | nil => rfl
  | cons t ts ih =>
      rw [cutWithin_cons, cutWithin_cons stop]
      by_cases hp : pending.isEmpty
      · by_cases hs : stop t.kind
        · simp [hp, hs, cutWithin]
        · by_cases hs' : stop' t.kind
          · simp [hp, hs, hs', cutWithin_cons, cutWithin_append]
          · simp [hp, hs, hs', cutWithin_cons, ih]
      · simp [hp, cutWithin_cons, ih]

/-- Tokens `us` behind `ts` that begin with a token at which cutting stops, or are none. -/
def Ends (stop : Token.Kind → Bool) (ts us : List Token) : Prop := cut stop (ts ++ us) = (ts, us)

/-- Separators of a second kind end a first part of what the others end. -/
theorem Ends.refine (h : Ends stop ts us) {before after : List Token}
    (hcut : cut stop' ts = (before, after)) :
    Ends (fun k => stop k || stop' k) before (after ++ us) := by
  have hor := cutWithin_or stop stop' [] (ts ++ us)
  rw [show cutWithin stop [] (ts ++ us) = (ts, us) from h] at hor
  have hts : before ++ after = ts := by rw [← cut_append stop' ts, hcut]
  rw [Ends, ← List.append_assoc, hts, cut, hor]
  simp only [show cutWithin stop' [] ts = (before, after) from hcut]

/-- Tokens that are passed stand before the end. -/
theorem Ends.exists_append (h : Ends stop ts us) (before : List Token) {rest : List Token}
    (heq : before ++ rest = ts ++ us) (hbefore : Passes stop [] before) :
    ∃ ts', ts = before ++ ts' ∧ rest = ts' ++ us ∧ Ends stop ts' us := by
  rw [Ends, ← heq, hbefore.cut, Prod.mk.injEq] at h
  obtain ⟨rfl, rfl⟩ := h
  refine ⟨(cut stop rest).1, rfl, (cut_append stop rest).symm, ?_⟩
  rw [Ends, cut_append]

/-- The end is at the first token that is not passed. -/
theorem Ends.eq_of_passes (h : Ends stop ts us) (before : List Token) {rest : List Token}
    {u : Token} (heq : before ++ u :: rest = ts ++ us) (hbefore : Passes stop [] before)
    (hu : stop u.kind = true) : ts = before ∧ us = u :: rest := by
  rw [Ends, ← heq, hbefore.cut_cons hu, Prod.mk.injEq] at h
  exact ⟨h.1.symm, h.2.symm⟩

/-- A token that does not end the others belongs to them. -/
theorem Ends.exists_after {before after rest : List Token} {u : Token}
    (h : Ends stop (before ++ after) us) (hafter : after ++ us = u :: rest)
    (hu : stop u.kind = false) : ∃ after', after = u :: after' ∧ rest = after' ++ us := by
  cases after with
  | nil =>
      rw [List.nil_append] at hafter
      rw [Ends, hafter] at h
      exact absurd (Passes.of_cutWithin h).2 (by rw [hu]; exact Bool.false_ne_true)
  | cons a after =>
      rw [List.cons_append, List.cons.injEq] at hafter
      exact ⟨after, by rw [hafter.1], hafter.2.symm⟩

theorem Ends.drop (before : List Token) (h : Ends stop (before ++ ts) us)
    (hb : Passes stop [] before) : Ends stop ts us := by
  rw [Ends, List.append_assoc, hb.cut, Prod.mk.injEq] at h
  exact Prod.ext (List.append_cancel_left h.1) h.2

/-- Tokens that end inside a block: what closes the block is found among them, or nothing is left
behind them. -/
theorem cutBlock_within (h : cutWithin stop (pending ++ [.closeCurly]) (ts ++ us) = (ts, us)) :
    cutWithin (· == .closeCurly) pending (ts ++ us) =
      ((cutWithin (· == .closeCurly) pending ts).1,
        (cutWithin (· == .closeCurly) pending ts).2 ++ us) ∧
    ((cutWithin (· == .closeCurly) pending ts).2 = [] → us = []) := by
  -- `pending` are the blocks open inside this one; the outermost brace is never reached before them
  induction ts generalizing pending with
  | nil =>
      have hus : us = [] := by
        cases us with
        | nil => rfl
        | cons u us =>
            rw [List.nil_append, cutWithin_cons] at h
            cases pending <;> simp at h
      subst hus
      exact ⟨rfl, fun _ => rfl⟩
  | cons t ts ih =>
      by_cases hstop : pending.isEmpty && (t.kind == .closeCurly)
      · simp only [List.cons_append, cutWithin_cons, hstop, if_true]
        simp
      · have hk : pending = [] → t.kind ≠ .closeCurly := by
          rintro rfl hk
          simp [hk] at hstop
        simp only [List.cons_append, cutWithin_cons, hstop] at h ⊢
        rw [pendingAfter_append pending hk] at h
        have hne : ((pending ++ [Token.Kind.closeCurly]).isEmpty && stop t.kind) = false := by
          cases pending <;> rfl
        rw [hne] at h
        simp only [Bool.false_eq_true, if_false, Prod.mk.injEq, List.cons.injEq, true_and] at h ⊢
        obtain ⟨hcut, hend⟩ := ih (Prod.ext h.1 h.2)
        rw [hcut]
        exact ⟨⟨rfl, rfl⟩, hend⟩

end CustomElements.Style
