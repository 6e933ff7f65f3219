import CustomElements.Proofs.Template.Coercion
import Mathlib.Data.List.Lex
import Mathlib.Order.Defs.LinearOrder

/-!
# The text of plain data

Data is written by two rules. In an attribute, or filled into a fragment, every value has a text. As
the result of a render function, null and objects have none, and the first of them ends the call.

Both rules go through arrays, and nothing else of a value is looked into. So a *path* says where a
value stands: the positions to take, from the outermost array to the innermost. The order in which
the rules come to the values is the lexicographic order of their paths. In these terms the two rules
differ in one thing only: a result has the text that it has in an attribute, unless null or an
object stands on some path, and then the one on the least path is reported
(`RenderResult.coerce_data`).
-/

namespace CustomElements

/-! ## Values in arrays -/

namespace Json

/-- The value at the end of a path through arrays. -/
def valueAt? : (path : List Nat) → Json → Option Json
  | [], v => some v
  | i :: path, .array items => items[i]?.bind (valueAt? path)
  | _ :: _, _ => none

/-- What the value is called if it has no text as a result. -/
def formless? : Json → Option Formless
  | .null => some .null
  | .object _ => some .object
  | _ => none

/-- Neither null nor an object stands on any path. -/
def HasText (v : Json) : Prop := ∀ path w, v.valueAt? path = some w → w.formless? = none

/-- Of null and the objects that stand on some path, the one on the least path is of this kind. -/
def Lacks (v : Json) (kind : Formless) : Prop :=
  ∃ path w, v.valueAt? path = some w ∧ w.formless? = some kind ∧
    ∀ earlier u, v.valueAt? earlier = some u → earlier < path → u.formless? = none

variable {v w : Json} {items : List Json} {kind kind' : Formless}

theorem valueAt?_nil : v.valueAt? [] = some v := by
  cases v <;> rfl

/-- Values other than arrays stand on the empty path only. -/
theorem valueAt?_eq_some (hv : ∀ items, v ≠ .array items) {path : List Nat} :
    v.valueAt? path = some w ↔ path = [] ∧ v = w := by
  cases path with
  | nil => simp [valueAt?_nil]
  | cons i path =>
      cases v with
      | array items => exact absurd rfl (hv items)
      | null | bool _ | number _ | string _ | object _ => simp [valueAt?]

theorem hasText_of_formless? (hv : ∀ items, v ≠ .array items) (h : v.formless? = none) :
    v.HasText := by
  intro path w hw
  obtain ⟨-, rfl⟩ := (valueAt?_eq_some hv).mp hw
  exact h

/-- On the empty path stands the value itself, and no path is less. -/
theorem lacks_of_formless? (h : v.formless? = some kind) : v.Lacks kind :=
  ⟨[], v, valueAt?_nil, h, fun earlier _ _ hlt => absurd hlt (List.not_lt_nil earlier)⟩

/-- An array is neither null nor an object. -/
theorem formless?_of_empty_path (h : (array items).valueAt? [] = some w) : w.formless? = none := by
  rw [← Option.some.inj (valueAt?_nil.symm.trans h)]
  rfl

theorem hasText_nil : (array []).HasText := by
  intro path w hw
  cases path with
  | nil => exact formless?_of_empty_path hw
  | cons i path => simp [valueAt?] at hw

theorem hasText_cons (hv : v.HasText) (hitems : (array items).HasText) :
    (array (v :: items)).HasText := by
  intro path w hw
  rcases path with - | ⟨- | i, path⟩
  · exact formless?_of_empty_path hw
  · exact hv path w hw
  · exact hitems (i :: path) w hw

theorem lacks_head (hv : v.Lacks kind) : (array (v :: items)).Lacks kind := by
  obtain ⟨path, w, hw, hkind, hleast⟩ := hv
  refine ⟨0 :: path, w, hw, hkind, fun earlier u hu hlt => ?_⟩
  rcases earlier with - | ⟨- | i, earlier⟩
  · exact formless?_of_empty_path hu
  · exact hleast earlier u hu (List.cons_lt_cons_self.mp hlt)
  · -- a path into a later item is not less
    rcases List.cons_lt_cons_iff.mp hlt with h | ⟨h, -⟩ <;> omega

theorem lacks_tail (hv : v.HasText) (hitems : (array items).Lacks kind) :
    (array (v :: items)).Lacks kind := by
  obtain ⟨path, w, hw, hkind, hleast⟩ := hitems
  cases path with
  | nil =>
      rw [formless?_of_empty_path hw] at hkind
      cases hkind
  | cons j path =>
      refine ⟨(j + 1) :: path, w, hw, hkind, fun earlier u hu hlt => ?_⟩
      rcases earlier with - | ⟨- | i, earlier⟩
      · exact formless?_of_empty_path hu
      · exact hv earlier u hu
      · refine hleast (i :: earlier) u hu (List.cons_lt_cons_iff.mpr ?_)
        rcases List.cons_lt_cons_iff.mp hlt with h | ⟨h, hlt⟩
        · exact .inl (Nat.lt_of_succ_lt_succ h)
        · exact .inr ⟨Nat.succ.inj h, hlt⟩

theorem HasText.not_lacks (hv : v.HasText) : ¬ v.Lacks kind := by
  rintro ⟨path, w, hw, hkind, -⟩
  rw [hv path w hw] at hkind
  cases hkind

/-- There is one least path. -/
theorem Lacks.unique (h : v.Lacks kind) (h' : v.Lacks kind') : kind = kind' := by
  obtain ⟨path, w, hw, hkind, hleast⟩ := h
  obtain ⟨path', w', hw', hkind', hleast'⟩ := h'
  rcases lt_trichotomy path path' with hlt | rfl | hlt
  · rw [hleast' path w hw hlt] at hkind
    cases hkind
  · obtain rfl := Option.some.inj (hw.symm.trans hw')
    exact Option.some.inj (hkind.symm.trans hkind')
  · rw [hleast path' w' hw' hlt] at hkind'
    cases hkind'

end Json

/-! ## The two rules -/

mutual

/-- Data is written as in an attribute, unless it lacks a text. -/
theorem dataText_cases : (v : Json) →
    v.HasText ∧ dataText v = .ok (attributeText v) ∨
      ∃ kind, v.Lacks kind ∧ dataText v = .error kind
  | .string _ | .number _ | .bool _ => .inl ⟨Json.hasText_of_formless? nofun rfl, rfl⟩
  | .object _ => .inr ⟨.object, Json.lacks_of_formless? rfl, rfl⟩
  | .null => .inr ⟨.null, Json.lacks_of_formless? rfl, rfl⟩
  | .array items => dataTexts_cases items

theorem dataTexts_cases : (items : List Json) →
    (Json.array items).HasText ∧ dataTexts items = .ok (attributeTexts items) ∨
      ∃ kind, (Json.array items).Lacks kind ∧ dataTexts items = .error kind
  | [] => .inl ⟨Json.hasText_nil, rfl⟩
  | v :: rest => by
      -- the first item decides, unless it has a text
      rcases dataText_cases v with ⟨hv, htext⟩ | ⟨kind, hv, htext⟩
      · rcases dataTexts_cases rest with ⟨hrest, htexts⟩ | ⟨kind, hrest, htexts⟩
        · refine .inl ⟨Json.hasText_cons hv hrest, ?_⟩
          rw [dataTexts, htext, htexts]
          rfl
        · refine .inr ⟨kind, Json.lacks_tail hv hrest, ?_⟩
          rw [dataTexts, htext, htexts]
          rfl
      · refine .inr ⟨kind, Json.lacks_head hv, ?_⟩
        rw [dataTexts, htext]
        rfl

end

theorem dataText_eq_ok_iff {v : Json} {s : String} :
    dataText v = .ok s ↔ v.HasText ∧ s = attributeText v := by
  rcases dataText_cases v with ⟨hv, htext⟩ | ⟨kind, hlacks, herror⟩
  · rw [htext, Except.ok.injEq, eq_comm, and_iff_right hv]
  · rw [herror]
    exact ⟨nofun, fun ⟨hv, _⟩ => absurd hlacks hv.not_lacks⟩

theorem dataText_eq_error_iff {v : Json} {kind : Formless} :
    dataText v = .error kind ↔ v.Lacks kind := by
  rcases dataText_cases v with ⟨hv, htext⟩ | ⟨kind', hlacks, herror⟩
  · rw [htext]
    exact ⟨nofun, fun h => absurd h hv.not_lacks⟩
  · rw [herror, Except.error.injEq]
    exact ⟨fun h => h ▸ hlacks, hlacks.unique⟩

namespace RenderResult

variable {d : Deliveries} {v : Json} {text : CoercedText} {kind : Formless}

theorem coerce_data_eq_ok_iff :
    (data v).coerce d = .ok text ↔ v.HasText ∧ text = ⟨attributeText v, []⟩ := by
  rw [coerce]
  constructor
  · intro h
    cases hdata : dataText v with
    | error kind => rw [hdata] at h; cases h
    | ok s =>
        rw [hdata] at h
        obtain ⟨hv, rfl⟩ := dataText_eq_ok_iff.mp hdata
        exact ⟨hv, (Except.ok.inj h).symm⟩
  · rintro ⟨hv, rfl⟩
    rw [dataText_eq_ok_iff.mpr ⟨hv, rfl⟩]
    rfl

theorem coerce_data_eq_error_iff : (data v).coerce d = .error kind ↔ v.Lacks kind := by
  rw [coerce, ← dataText_eq_error_iff]
  cases dataText v <;> simp [Except.map]

end RenderResult

/-- A result that has no text ends the request for it, wherever the result comes from. -/
theorem Memo.renderText_of_render_error {m : Memo} {j : Journal} {t : Template} {reason : Change}
    {inst : Instance} {templater : Nat} {changed : Bool} {result : RenderResult} {d : Deliveries}
    {kind : Formless}
    (h : (m.render j t reason inst templater).answer = .ok ⟨changed, some result⟩)
    (herror : result.coerce d = .error kind) :
    (m.renderText j d t reason inst templater).answer = .error (.missingText kind) := by
  simp only [renderText, h, Memoized.mapM, herror]
  rfl

/--
**Data that a render function returns has the text that it has in an attribute, and no pending
texts, exactly if neither null nor an object stands in it, in arrays at any depth.** Otherwise it
has none, and what is reported is the kind of the first of them, depth first and from left to right.
A request for the text of a template that gave this data is answered accordingly.
-/
theorem RenderResult.coerce_data (d : Deliveries) (v : Json) :
    ((∃ text, (RenderResult.data v).coerce d = .ok text) ↔ v.HasText) ∧
    (∀ text, (RenderResult.data v).coerce d = .ok text → text = ⟨attributeText v, []⟩) ∧
    (∀ kind, (RenderResult.data v).coerce d = .error kind ↔ v.Lacks kind) ∧
    ∀ (m : Memo) (j : Journal) (t : Template) (reason : Change) (inst : Instance)
        (templater : Nat) (changed : Bool),
      (m.render j t reason inst templater).answer = .ok ⟨changed, some (.data v)⟩ →
        (v.HasText → (m.renderText j d t reason inst templater).answer =
          .ok ⟨changed, some ⟨attributeText v, []⟩⟩) ∧
        ∀ kind, v.Lacks kind →
          (m.renderText j d t reason inst templater).answer = .error (.missingText kind) := by
  refine ⟨⟨fun ⟨text, h⟩ => (coerce_data_eq_ok_iff.mp h).1,
      fun hv => ⟨_, coerce_data_eq_ok_iff.mpr ⟨hv, rfl⟩⟩⟩,
    fun text h => (coerce_data_eq_ok_iff.mp h).2, fun kind => coerce_data_eq_error_iff, ?_⟩
  intro m j t reason inst templater changed hrender
  exact ⟨fun hv => Memo.renderText_of_render hrender (coerce_data_eq_ok_iff.mpr ⟨hv, rfl⟩),
    fun kind hv => Memo.renderText_of_render_error hrender (coerce_data_eq_error_iff.mpr hv)⟩

namespace Sample

/-- Data with null two arrays deep, and an object after it. -/
def reading : Json := .array [.string "ok", .array [.bool true, .array [.int 7, .null]], .object []]

/-- A cache that holds the data. -/
def readingMemo : Memo := Memo.empty.insert ⟨0, 0, 0⟩ (.data reading)

end Sample

open Sample in
/-- The null is reported and not the object, which stands higher up but comes later. -/
theorem coerce_data_reading :
    (readingMemo.render .empty flyerTemplate .force flyerHost 0).answer =
        .ok ⟨false, some (.data reading)⟩ ∧
      reading.Lacks .null ∧
      (readingMemo.renderText .empty .none flyerTemplate .force flyerHost 0).answer =
        .error (.missingText .null) := by
  have hcached : (readingMemo.render .empty flyerTemplate .force flyerHost 0).answer =
      .ok ⟨false, some (.data reading)⟩ := rfl
  obtain ⟨-, -, hkind, hrequest⟩ := RenderResult.coerce_data .none reading
  have hlacks : reading.Lacks .null := (hkind .null).mp rfl
  exact ⟨hcached, hlacks,
    (hrequest readingMemo .empty flyerTemplate .force flyerHost 0 false hcached).2 .null hlacks⟩

end CustomElements
