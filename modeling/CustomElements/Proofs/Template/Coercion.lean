import CustomElements.Template.Memo

/-!
# The text of a fragment, leaf by leaf

A fragment is put together by additions: static markup, or a value, which may be a list or a
fragment that was put together in the same way. What has a text of its own in all this are the
*leaves*: static markup, literal text, data, nodes and pending texts. The text of a fragment is that
of its leaves, in the order of the additions and depth first, and the pending texts reported with it
are those among the leaves (`Fragment.coerce_additions`).

A delivery changes what is written for one pending text. Since the leaves stay the same whatever is
delivered, it shows in every later text of the fragment, also of one that comes out of a cache, and
only where that pending text stands.
-/

namespace CustomElements

/-! ## Leaves -/

/-- A part of a fragment that has a text of its own. -/
inductive Leaf where
  /-- Static markup or literal text. -/
  | text (s : String)
  | value (v : Json)
  | element (n : Node)
  | pending (p : PendingText)

namespace Leaf

/-- What is written for the leaf now. -/
def written (d : Deliveries) : Leaf → String
  | .text s => s
  | .value v => attributeText v
  | .element n => n.toHtml
  | .pending p => d.current p

/-- The pending text that the leaf is, if it is one. -/
def pending? : Leaf → Option PendingText
  | .pending p => some p
  | _ => none

/-- The leaf as a value of a fragment. -/
def toInterpolation : Leaf → Interpolation
  | .text s => .text s
  | .value v => .value v
  | .element n => .element n
  | .pending p => .pending p

/-- The leaf is the pending text, and nothing has been delivered for it. -/
def awaits (d : Deliveries) (p : PendingText) (l : Leaf) : Bool :=
  l.pending?.any (·.id == p.id) && !d.isReady p

end Leaf

/-- The text of leaves that follow one another. -/
def CoercedText.ofLeaves (d : Deliveries) (leaves : List Leaf) : CoercedText :=
  ⟨String.join (leaves.map (Leaf.written d)), leaves.filterMap Leaf.pending?⟩

/-! ## Additions -/

mutual

/-- What a fragment is put together from, one thing after the other. -/
inductive Addition where
  | static (s : String)
  | value (f : Filling)

/-- A value that is put together before it is added. -/
inductive Filling where
  | leaf (l : Leaf)
  | list (items : List Filling)
  | fragment (additions : List Addition)

end

mutual

/-- The value that is added. -/
def Filling.made : Filling → Interpolation
  | .leaf l => l.toInterpolation
  | .list items => .list (Filling.madeList items)
  | .fragment additions => (Fragment.empty.add additions).toInterpolation

/-- The values of a list. -/
def Filling.madeList : List Filling → List Interpolation
  | [] => []
  | f :: rest => f.made :: Filling.madeList rest

/-- The fragment with additions at its end. -/
def Fragment.add (f : Fragment) : List Addition → Fragment
  | [] => f
  | .static s :: rest => (f.pushStatic s).add rest
  | .value v :: rest => (f.push v.made).add rest

end

mutual

/-- The leaves of a value, depth first. -/
def Filling.leaves : Filling → List Leaf
  | .leaf l => [l]
  | .list items => Filling.leavesList items
  | .fragment additions => Addition.leavesList additions

/-- The leaves of values, one after the other. -/
def Filling.leavesList : List Filling → List Leaf
  | [] => []
  | f :: rest => f.leaves ++ Filling.leavesList rest

/-- The leaves of additions, one after the other. -/
def Addition.leavesList : List Addition → List Leaf
  | [] => []
  | .static s :: rest => .text s :: Addition.leavesList rest
  | .value f :: rest => f.leaves ++ Addition.leavesList rest

end

/-! ## Coercion -/

namespace CoercedText

theorem append_def (a b : CoercedText) : a ++ b = ⟨a.text ++ b.text, a.pending ++ b.pending⟩ := rfl

theorem append_assoc (a b c : CoercedText) : a ++ b ++ c = a ++ (b ++ c) := by
  simp only [append_def, String.append_assoc, List.append_assoc]

theorem append_empty (a : CoercedText) : a ++ empty = a := by
  rw [append_def, empty, String.append_empty, List.append_nil]

theorem empty_append (a : CoercedText) : empty ++ a = a := by
  rw [append_def, empty, String.empty_append, List.nil_append]

theorem ofString_append (s t : String) : ofString (s ++ t) = ofString s ++ ofString t := rfl

variable (d : Deliveries)

theorem ofLeaves_append (leaves others : List Leaf) :
    ofLeaves d (leaves ++ others) = ofLeaves d leaves ++ ofLeaves d others := by
  simp only [ofLeaves, append_def, List.map_append, String.join_append, List.filterMap_append]

theorem ofLeaves_text_cons (s : String) (leaves : List Leaf) :
    ofLeaves d (.text s :: leaves) = ofString s ++ ofLeaves d leaves := by
  rw [ofLeaves, List.map_cons, String.join_cons]
  rfl

end CoercedText

section Fragment

variable (d : Deliveries) (f : Fragment)

theorem Interpolation.coerceRest_append (rest others : List (Interpolation × String)) :
    coerceRest d (rest ++ others) = coerceRest d rest ++ coerceRest d others := by
  induction rest with
  | nil => exact (CoercedText.empty_append _).symm
  | cons e rest ih =>
      obtain ⟨v, s⟩ := e
      rw [List.cons_append, coerceRest, ih, coerceRest, ← CoercedText.append_assoc]

theorem Interpolation.coerceRest_extendLast (s : String) {rest : List (Interpolation × String)}
    (h : rest ≠ []) :
    coerceRest d (Fragment.extendLast s rest) = coerceRest d rest ++ .ofString s := by
  induction rest with
  | nil => exact absurd rfl h
  | cons e rest ih =>
      obtain ⟨v, t⟩ := e
      cases rest with
      | nil =>
          simp only [Fragment.extendLast, coerceRest, CoercedText.ofString_append,
            CoercedText.append_empty, CoercedText.append_assoc]
      | cons e' rest =>
          rw [Fragment.extendLast, coerceRest, ih (List.cons_ne_nil e' rest),
            ← CoercedText.append_assoc, ← coerceRest]

theorem Fragment.coerce_def : f.coerce d = .ofString f.head ++ Interpolation.coerceRest d f.rest :=
  rfl

theorem Fragment.coerce_empty : Fragment.empty.coerce d = .empty := rfl

theorem Fragment.coerce_pushStatic (s : String) :
    (f.pushStatic s).coerce d = f.coerce d ++ .ofString s := by
  obtain ⟨head, rest⟩ := f
  cases rest with
  | nil =>
      simp only [pushStatic, coerce_def, CoercedText.ofString_append, Interpolation.coerceRest,
        CoercedText.append_empty]
  | cons e rest =>
      rw [pushStatic, coerce_def, coerce_def,
        Interpolation.coerceRest_extendLast d s (List.cons_ne_nil e rest), CoercedText.append_assoc]

theorem Fragment.coerce_push (v : Interpolation) :
    (f.push v).coerce d = f.coerce d ++ v.coerce d := by
  have hlast : Interpolation.coerceRest d [(v, "")] = v.coerce d := by
    rw [Interpolation.coerceRest, Interpolation.coerceRest, CoercedText.append_empty]
    exact CoercedText.append_empty _
  rw [push, coerce_def, Interpolation.coerceRest_append, hlast, ← CoercedText.append_assoc]
  rfl

end Fragment

theorem Leaf.coerce_toInterpolation (d : Deliveries) (l : Leaf) :
    l.toInterpolation.coerce d = .ofLeaves d [l] := by
  cases l <;> simp [toInterpolation, Interpolation.coerce, CoercedText.ofLeaves, written, pending?,
    CoercedText.ofString, String.join]

mutual

/-- The text of a value is that of its leaves. -/
theorem Filling.coerce_made (d : Deliveries) :
    (f : Filling) → f.made.coerce d = .ofLeaves d f.leaves
  | .leaf l => l.coerce_toInterpolation d
  | .list items => Filling.coerceList_madeList d items
  | .fragment additions => by
      have h := Addition.coerce_add d .empty additions
      rw [Fragment.coerce_empty, CoercedText.empty_append] at h
      exact h

theorem Filling.coerceList_madeList (d : Deliveries) : (items : List Filling) →
    Interpolation.coerceList d (Filling.madeList items) = .ofLeaves d (Filling.leavesList items)
  | [] => rfl
  | f :: rest => by
      rw [Filling.madeList, Interpolation.coerceList, Filling.coerce_made d f,
        Filling.coerceList_madeList d rest, Filling.leavesList, CoercedText.ofLeaves_append]

theorem Addition.coerce_add (d : Deliveries) (f : Fragment) : (additions : List Addition) →
    (f.add additions).coerce d = f.coerce d ++ .ofLeaves d (Addition.leavesList additions)
  | [] => (CoercedText.append_empty _).symm
  | .static s :: rest => by
      rw [Fragment.add, Addition.coerce_add d _ rest, Fragment.coerce_pushStatic,
        Addition.leavesList, CoercedText.ofLeaves_text_cons, CoercedText.append_assoc]
  | .value v :: rest => by
      rw [Fragment.add, Addition.coerce_add d _ rest, Fragment.coerce_push,
        Filling.coerce_made d v, Addition.leavesList, CoercedText.ofLeaves_append,
        CoercedText.append_assoc]

end

/-! ## Deliveries -/

theorem Deliveries.get?_deliver (d : Deliveries) (p q : PendingText) (text : String) :
    (d.deliver p text).2.get? q =
      if q.id = p.id ∧ d.isReady p = false then some text else d.get? q := by
  rw [deliver]
  by_cases hready : d.isReady p = true
  · rw [if_pos hready, if_neg (by simp [hready])]
  · have hready : d.isReady p = false := Bool.not_eq_true _ ▸ hready
    have hget : d.get? p = .none := by simpa [isReady] using hready
    rw [if_neg (by simp [hready]), get?, List.find?_append]
    by_cases hid : q.id = p.id
    · have hnone : d.texts.find? (fun e => e.1 == p.id) = .none :=
        Option.map_eq_none_iff.mp hget
      rw [if_pos ⟨hid, hready⟩, hid, hnone, Option.none_or]
      simp
    · have hne : (p.id == q.id) = false := beq_false_of_ne (Ne.symm hid)
      rw [if_neg fun h => hid h.1, List.find?_singleton, hne]
      simp [get?]

/-- A delivery changes what is written for the leaves that wait for it. -/
theorem Leaf.written_deliver (d : Deliveries) (p : PendingText) (text : String) (l : Leaf) :
    l.written (d.deliver p text).2 = if l.awaits d p then text else l.written d := by
  cases l with
  | pending q =>
      rw [written, Deliveries.current, Deliveries.get?_deliver, written, Deliveries.current]
      by_cases h : q.id = p.id ∧ d.isReady p = false
      · rw [if_pos h, if_pos (by simp [awaits, pending?, h])]
        rfl
      · rw [if_neg h, if_neg]
        simpa [awaits, pending?] using h
  | text _ | value _ | element _ => rfl

/-! ## Results from a cache -/

/-- A text is made of a result when it is asked for, wherever the result comes from. -/
theorem Memo.renderText_of_render {m : Memo} {j : Journal} {t : Template} {reason : Change}
    {inst : Instance} {templater : Nat} {changed : Bool} {result : RenderResult} {d : Deliveries}
    {text : CoercedText}
    (h : (m.render j t reason inst templater).answer = .ok ⟨changed, some result⟩)
    (htext : result.coerce d = .ok text) :
    (m.renderText j d t reason inst templater).answer = .ok ⟨changed, some text⟩ := by
  simp only [renderText, h, Memoized.mapM, htext]
  rfl

namespace Fragment

/--
**The text of a fragment is that of its leaves, and the pending texts with it are the leaves that
are pending texts.** So it is for every sequence of additions and whatever has been delivered, and
when the fragment is the result that a cache gives. What is delivered for a pending text appears at
the leaves that are this text, if nothing was delivered for it before, and changes no other leaf.
-/
theorem coerce_additions (additions : List Addition) (d : Deliveries) :
    let f := Fragment.empty.add additions
    let leaves := Addition.leavesList additions
    let text : CoercedText :=
      ⟨String.join (leaves.map (Leaf.written d)), leaves.filterMap Leaf.pending?⟩
    f.statics.length = f.values.length + 1 ∧
    (RenderResult.fragment f).coerce d = .ok text ∧
    (∀ (m : Memo) (j : Journal) (t : Template) (reason : Change) (inst : Instance)
        (templater : Nat) (changed : Bool),
      (m.render j t reason inst templater).answer = .ok ⟨changed, some (.fragment f)⟩ →
        (m.renderText j d t reason inst templater).answer = .ok ⟨changed, some text⟩) ∧
    ∀ (p : PendingText) (delivered : String),
      leaves.map (Leaf.written (d.deliver p delivered).2) =
        leaves.map fun l => if l.awaits d p then delivered else l.written d := by
  intro f leaves text
  have hcoerce : (RenderResult.fragment f).coerce d = .ok text := by
    have h := Addition.coerce_add d .empty additions
    rw [coerce_empty, CoercedText.empty_append] at h
    exact congrArg Except.ok h
  refine ⟨f.length_statics, hcoerce, fun m j t reason inst templater changed h => ?_,
    fun p delivered => ?_⟩
  · exact Memo.renderText_of_render h hcoerce
  · exact List.map_congr_left fun l _ => l.written_deliver d p delivered

end Fragment

namespace Sample

/-- A text that comes later, in two places, one of them in a list behind another fragment. -/
def later : PendingText := ⟨0, "wait"⟩

def flyer : List Addition :=
  [.static "<b>", .value (.leaf (.pending later)), .static "</b>",
    .value (.list [.fragment [.static "<i>", .value (.leaf (.value (.bool true)))],
      .leaf (.pending later)])]

/-- A cache that holds the flyer. -/
def flyerMemo : Memo := Memo.empty.insert ⟨0, 0, 0⟩ (.fragment (Fragment.empty.add flyer))

/-- A template that computes once. -/
def flyerTemplate : Template :=
  .ofFunction 0 .onlyNever fun _ call => ⟨call.inst.ownAttributes, .error (.message "again")⟩

def flyerHost : Instance := .create 0 0 ⟨[], .none⟩ "x-flyer" ∅ none "en"

end Sample

open Sample in
/-- The text has been delivered since the flyer was cached. -/
theorem coerce_additions_flyer :
    let d := (Deliveries.none.deliver later "done").2
    (flyerMemo.render .empty flyerTemplate .force flyerHost 0).answer =
        .ok ⟨false, some (.fragment (Fragment.empty.add flyer))⟩ ∧
      (flyerMemo.renderText .empty d flyerTemplate .force flyerHost 0).answer =
        .ok ⟨false, some ⟨"<b>done</b><i>truedone", [later, later]⟩⟩ := by
  intro d
  have hcached : (flyerMemo.render .empty flyerTemplate .force flyerHost 0).answer =
      .ok ⟨false, some (.fragment (Fragment.empty.add flyer))⟩ := rfl
  have htext : (⟨String.join ((Addition.leavesList flyer).map (Leaf.written d)),
      (Addition.leavesList flyer).filterMap Leaf.pending?⟩ : CoercedText) =
        ⟨"<b>done</b><i>truedone", [later, later]⟩ := by decide +kernel
  have hanswer := (Fragment.coerce_additions flyer d).2.2.1 flyerMemo .empty flyerTemplate
    .force flyerHost 0 false hcached
  rw [htext] at hanswer
  exact ⟨hcached, hanswer⟩

end CustomElements
