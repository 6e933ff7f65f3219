import CustomElements.Style.Sheet
import Mathlib.Data.List.Basic

/-!
# What a scoping identifier tells

An identifier is made of the class prefix, the tag name and, for sheets of an instance's own, the
index, with dashes in between. The digits of an index hold no dash, so the last dash of the
identifier is the one before the index, and tag name and index can be read off
(`Style.uniqueId_inj`). But a tag name may itself end in a dash and digits. Then its shared
identifier is that of an instance of another tag name (`Style.uniqueId_eq_globalId`).
-/

namespace CustomElements.Style

theorem dash_notMem_toString (n : Nat) : '-' ∉ (toString n).toList := by
  intro h
  rw [Nat.toString_eq_repr, Nat.toList_repr] at h
  have hdigit := Nat.isDigit_of_mem_toDigits (by decide) (by decide) h
  exact absurd hdigit (by decide)

/-- What stands before the last occurrence of a letter and what stands behind it. -/
theorem append_cons_inj_of_notMem_right {α : Type} {a : α} {l l' m m' : List α} (hm : a ∉ m)
    (hm' : a ∉ m') (h : l ++ a :: m = l' ++ a :: m') : l = l' ∧ m = m' := by
  rcases List.append_eq_append_iff.mp h with ⟨c, rfl, hc⟩ | ⟨c, rfl, hc⟩ <;>
    rcases c with - | ⟨b, c⟩
  · rw [List.nil_append, List.cons.injEq] at hc
    exact ⟨(List.append_nil l).symm, hc.2⟩
  · -- otherwise the letter would stand in what is behind it
    rw [List.cons_append, List.cons.injEq] at hc
    exact absurd (hc.2 ▸ List.mem_append_right c List.mem_cons_self) hm
  · rw [List.nil_append, List.cons.injEq] at hc
    exact ⟨List.append_nil l', hc.2.symm⟩
  · rw [List.cons_append, List.cons.injEq] at hc
    exact absurd (hc.2 ▸ List.mem_append_right c List.mem_cons_self) hm'

variable {classPrefix tag tag' : String} {index index' : Nat}

theorem globalId_inj : globalId classPrefix tag = globalId classPrefix tag' ↔ tag = tag' := by
  rw [globalId, globalId, String.append_right_inj]

/-- The identifier of an instance is the shared one of the tag name with the index added to it. -/
theorem uniqueId_eq : uniqueId classPrefix tag index =
    globalId classPrefix (tag ++ "-" ++ toString index) := by
  simp only [uniqueId, globalId, String.append_assoc]

theorem uniqueId_eq_globalId : uniqueId classPrefix tag index = globalId classPrefix tag' ↔
    tag' = tag ++ "-" ++ toString index := by
  rw [uniqueId_eq, globalId_inj, eq_comm]

/-- The tag name and the index can be read off an identifier. -/
theorem uniqueId_inj : uniqueId classPrefix tag index = uniqueId classPrefix tag' index' ↔
    tag = tag' ∧ index = index' := by
  refine ⟨fun h => ?_, fun ⟨htag, hindex⟩ => by rw [htag, hindex]⟩
  rw [uniqueId_eq, uniqueId_eq, globalId_inj] at h
  have hlist := congrArg String.toList h
  simp only [String.toList_append, List.append_assoc] at hlist
  obtain ⟨htag, hdigits⟩ := append_cons_inj_of_notMem_right (dash_notMem_toString index)
    (dash_notMem_toString index') hlist
  rw [Nat.toString_eq_repr, Nat.toString_eq_repr, Nat.toList_repr, Nat.toList_repr] at hdigits
  have hread := congrArg (Nat.ofDigitChars 10 · 0) hdigits
  exact ⟨String.toList_inj.mp htag, by simpa using hread⟩

/--
**For one class prefix, tag name and index give different instances different identifiers.** Tag
names may be empty, hold dashes and end in digits. The identifier of an instance is the shared one
of exactly one tag name: its own with a dash and the index behind it.
-/
theorem uniqueId_determines (classPrefix tag tag' : String) (index index' : Nat) :
    (uniqueId classPrefix tag index = uniqueId classPrefix tag' index' ↔
      tag = tag' ∧ index = index') ∧
    (uniqueId classPrefix tag index = globalId classPrefix tag' ↔
      tag' = tag ++ "-" ++ toString index) :=
  ⟨uniqueId_inj, uniqueId_eq_globalId⟩

end CustomElements.Style
