import CustomElements.Proofs.Session.Calls
import CustomElements.Proofs.Session.Rollback

/-!
# Shared stylesheets

A sheet that is shared by all instances of a definition is made for the first instance in the
session, and a record in the session keeps later ones from making it again. The record is made as
soon as the instance's stylesheets are scoped, long before it is known whether the instance comes
into a document: it may be part of some content, and whoever receives the content may have no place
for it.

So no shared sheet is written twice (`sharedSheets_nodup`), over all calls on the session and
whichever of them fail. But one can be missing: exactly if every copy of it was in content that was
dropped (`sharedSheets_returned_iff`).
-/

namespace CustomElements

/-! ## Who makes a shared sheet -/

/-- The sheet is shared by all instances. -/
def isShared (e : SheetSource × StyleElement) : Bool := e.2.2.scope == .global

/-- The occurrence puts its definition on record. -/
def Occurrence.records (o : Occurrence) : Bool := o.emitsGlobal && o.definition.sharesSheets

theorem Occurrence.emitsGlobal_iff (o : Occurrence) :
    o.emitsGlobal = true ↔ o.definition.id ∉ o.before.emitted := by
  simp [Occurrence.emitsGlobal, Session.isGlobalEmitted]

section Occurrence

variable {o : Occurrence} {answer : Option (List Node) × StyleScoping} {w : Work}

/-- What is on record after an occurrence. -/
theorem Occurrence.mem_emitted_after (h : o.parts = (.ok answer, w)) (id : Nat) :
    id ∈ o.after.emitted ↔
      id ∈ o.before.emitted ∨ id = o.definition.id ∧ o.records = true := by
  obtain ⟨-, -, -, hrecord⟩ := Occurrence.parts_ok h
  rw [hrecord, Occurrence.records]
  split
  · rename_i hc
    rw [List.mem_cons, hc, or_comm]
    simp
  · rename_i hc
    simp [hc]

/-- Every entry makes what its template makes of itself. -/
theorem Occurrence.makes (h : o.parts = (.ok answer, w)) {entry : Nat} {t : Template}
    (ht : o.definition.css[entry]? = some t) :
    ∃ made, o.made[entry]? = some made ∧ Makes o.emitsGlobal t made := by
  obtain ⟨hmakes, -, -, -⟩ := Occurrence.parts_ok h
  obtain ⟨hlength, hget⟩ := List.forall₂_iff_get.mp hmakes
  obtain ⟨hi, rfl⟩ := List.getElem?_eq_some_iff.mp ht
  have hi' : entry < o.made.length := by omega
  exact ⟨o.made[entry], List.getElem?_eq_getElem hi', hget entry hi hi'⟩

/-- Only an occurrence that puts its definition on record makes shared sheets. -/
theorem Occurrence.records_of_shared (h : o.parts = (.ok answer, w))
    {e : SheetSource × StyleElement} (he : e ∈ o.sheets) (hs : isShared e = true) :
    e.1.definition = o.definition.id ∧ o.records = true := by
  obtain ⟨source, element⟩ := e
  obtain ⟨i, sheet, hi, rfl, rfl⟩ := mem_labelled.mp he
  refine ⟨rfl, ?_⟩
  obtain ⟨hmakes, -, -, -⟩ := Occurrence.parts_ok h
  have hlength := hmakes.length_eq
  obtain ⟨hlt, -⟩ := List.getElem?_eq_some_iff.mp hi
  have hi' : i < o.definition.css.length := by omega
  have ht : o.definition.css[i]? = some o.definition.css[i] := List.getElem?_eq_getElem hi'
  obtain ⟨made, hmade, hmakes⟩ := Occurrence.makes h ht
  rw [hi, Option.some.injEq] at hmade
  subst hmade
  have hglobal : Style.Scope.ofMask o.definition.css[i].mask = .global := by
    rw [← hmakes.scope sheet rfl]
    simpa [isShared] using hs
  have hemits : o.emitsGlobal = true := (hmakes.isSome.mp rfl).2 hglobal
  have hshares : o.definition.sharesSheets = true := by
    rw [Definition.sharesSheets, List.any_eq_true]
    exact ⟨_, List.getElem_mem hi', by rw [hglobal]; rfl⟩
  rw [Occurrence.records, hemits, hshares]
  rfl

/-- An occurrence that puts its definition on record makes all its shared sheets. -/
theorem Occurrence.shared_of_records (h : o.parts = (.ok answer, w)) (hr : o.records = true)
    {entry : Nat} {t : Template} (ht : o.definition.css[entry]? = some t)
    (hrun : t.run?.isSome = true) :
    ∃ element, (⟨o.definition.id, entry⟩, element) ∈ o.sheets := by
  obtain ⟨made, hmade, hmakes⟩ := Occurrence.makes h ht
  have hemits : o.emitsGlobal = true := by
    rw [Occurrence.records, Bool.and_eq_true] at hr
    exact hr.1
  obtain ⟨sheet, rfl⟩ := Option.isSome_iff_exists.mp (hmakes.isSome.mpr ⟨hrun, fun _ => hemits⟩)
  exact ⟨(∅, sheet), mem_labelled.mpr ⟨entry, sheet, hmade, by rw [Nat.zero_add], rfl⟩⟩

theorem Occurrence.mem_sheets_of_written {e : SheetSource × StyleElement}
    (h : e ∈ o.writtenSheets) : e ∈ o.sheets := by
  unfold Occurrence.writtenSheets at h
  split at h
  · exact h
  · simp at h

theorem Occurrence.nodup_writtenSheets (o : Occurrence) :
    (o.writtenSheets.map Prod.fst).Nodup := by
  unfold Occurrence.writtenSheets
  split
  · exact nodup_labelled _ _ _
  · exact List.nodup_nil

/-- A shared sheet that is written is of a definition that was not on record before. -/
theorem Occurrence.new_of_shared (h : o.parts = (.ok answer, w)) {e : SheetSource × StyleElement}
    (he : e ∈ o.writtenSheets) (hs : isShared e = true) :
    e.1.definition ∈ o.after.emitted ∧ e.1.definition ∉ o.before.emitted := by
  obtain ⟨hid, hrecords⟩ :=
    Occurrence.records_of_shared h (Occurrence.mem_sheets_of_written he) hs
  rw [Occurrence.mem_emitted_after h]
  refine ⟨.inr ⟨hid, hrecords⟩, ?_⟩
  rw [Occurrence.records, Bool.and_eq_true, o.emitsGlobal_iff] at hrecords
  rw [hid]
  exact hrecords.1

end Occurrence

/-! ## The record over many occurrences -/

section History

variable {os : List Occurrence} {before after : List Nat}

/-- What is on record in the end was there before or was recorded by an occurrence. -/
theorem Linked.mem_emitted (h : Linked Session.emitted before os after)
    (hok : ∀ o ∈ os, ∃ answer w, o.parts = (.ok answer, w)) (id : Nat) :
    id ∈ after ↔ id ∈ before ∨ ∃ o ∈ os, o.definition.id = id ∧ o.records = true := by
  induction os generalizing before with
  | nil =>
      cases h
      simp
  | cons o os ih =>
      obtain ⟨hbefore, hos⟩ := h
      obtain ⟨answer, w, hparts⟩ := hok o List.mem_cons_self
      rw [ih hos fun o' ho' => hok o' (List.mem_cons_of_mem o ho'),
        Occurrence.mem_emitted_after hparts, hbefore, or_assoc, List.exists_mem_cons_iff,
        eq_comm (a := id)]

/-- Every definition with shared sheets that has begun is on record in the end. -/
theorem Linked.mem_emitted_of_mem (h : Linked Session.emitted before os after)
    (hok : ∀ o ∈ os, ∃ answer w, o.parts = (.ok answer, w)) {o : Occurrence} (ho : o ∈ os)
    (hs : o.definition.sharesSheets = true) : o.definition.id ∈ after := by
  induction os generalizing before with
  | nil => simp at ho
  | cons o' os ih =>
      obtain ⟨-, hos⟩ := h
      have hok' := fun o'' ho'' => hok o'' (List.mem_cons_of_mem o' ho'')
      rcases List.mem_cons.mp ho with rfl | ho
      · obtain ⟨answer, w, hparts⟩ := hok o List.mem_cons_self
        rw [hos.mem_emitted hok', Occurrence.mem_emitted_after hparts]
        by_cases hb : o.definition.id ∈ o.before.emitted
        · exact .inl (.inl hb)
        · refine .inl (.inr ⟨rfl, ?_⟩)
          rw [Occurrence.records, o.emitsGlobal_iff.mpr hb, hs]
          rfl
      · exact ih hos hok' ho

/-- No source makes two shared sheets, and none that was on record makes any. -/
theorem Linked.nodup_shared (h : Linked Session.emitted before os after)
    (hok : ∀ o ∈ os, ∃ answer w, o.parts = (.ok answer, w)) :
    (((writtenSheets os).filter isShared).map Prod.fst).Nodup ∧
      ∀ e ∈ writtenSheets os, isShared e = true → e.1.definition ∉ before := by
  induction os generalizing before with
  | nil => simp
  | cons o os ih =>
      obtain ⟨rfl, hos⟩ := h
      obtain ⟨answer, w, hparts⟩ := hok o List.mem_cons_self
      obtain ⟨hnodup, hnew⟩ := ih hos fun o' ho' => hok o' (List.mem_cons_of_mem o ho')
      rw [writtenSheets_cons, List.filter_append, List.map_append, List.nodup_append]
      refine ⟨⟨o.nodup_writtenSheets.sublist (List.filter_sublist.map _), hnodup, ?_⟩, ?_⟩
      · -- what this occurrence makes is on record for all that come after it
        intro source hsource source' hsource' heq
        obtain ⟨e, he, rfl⟩ := List.mem_map.mp hsource
        obtain ⟨e', he', rfl⟩ := List.mem_map.mp hsource'
        rw [List.mem_filter] at he he'
        refine hnew e' he'.1 he'.2 ?_
        rw [← heq]
        exact (Occurrence.new_of_shared hparts he.1 he.2).1
      · intro e he hs
        rcases List.mem_append.mp he with he | he
        · exact (Occurrence.new_of_shared hparts he hs).2
        · intro hb
          refine hnew e he hs ?_
          rw [Occurrence.mem_emitted_after hparts]
          exact .inl hb

end History

/-! ## Documents -/

/-- Equal images come from the same list in another order. -/
theorem exists_perm_of_perm_map {α β : Type} {f : α → β} {l : List β} {m : List α}
    (h : l.Perm (m.map f)) : ∃ m' : List α, m'.map f = l ∧ m'.Perm m := by
  obtain ⟨m', hm', hperm⟩ := List.perm_comp_forall₂ (r := fun b a => b = f a) h
    (List.forall₂_map_left_iff.mpr (List.forall₂_same.mpr fun _ _ => rfl))
  refine ⟨m', ?_, hperm⟩
  rw [eq_comm, ← List.forall₂_eq_eq_eq, List.forall₂_map_right_iff]
  exact hm'

/--
**No shared stylesheet is written twice.** Whatever calls are made on a session, and whichever of
them fail: each `<style>` element in the trees that were returned comes from a source, an entry in
the list of a definition's stylesheets, from which the host of an expanded component received it;
and no two elements with shared sheets have the same source.
-/
theorem sharedSheets_nodup (p : Progress) (calls : List TreeCall)
    (hparse : ∀ k ∈ calls, k.renderer.ParsesNoStyles) :
    (∃ os, Retained p calls os) ∧ ∀ os, Retained p calls os →
      ∃ sheets : List (SheetSource × StyleElement),
        sheets.map Prod.snd = Node.stylesForest (serve calls p).1 ∧
        sheets.Subperm (writtenSheets os) ∧
        ((sheets.filter isShared).map Prod.fst).Nodup := by
  refine ⟨exists_retained calls p, fun os h => ?_⟩
  obtain ⟨all, hall, hperm⟩ := exists_perm_of_perm_map (h.perm_styles hparse)
  obtain ⟨returned, dropped, rfl, hreturned, -⟩ := List.map_eq_append_iff.mp hall
  have hsub : returned.Subperm (writtenSheets os) :=
    (List.sublist_append_left returned dropped).subperm.trans hperm.subperm
  refine ⟨returned, hreturned, hsub, ?_⟩
  obtain ⟨hnodup, -⟩ := h.linked.nodup_shared fun o ho => (h.parts_ok o ho).2
  have hall' := ((hperm.filter isShared).map Prod.fst).nodup_iff.mpr hnodup
  rw [List.filter_append, List.map_append] at hall'
  exact (List.nodup_append.mp hall').1

namespace Sample

/-- Nothing has happened. -/
def fresh : Progress := ⟨.empty 0, .empty⟩

/-- Asks for a definition's tree. -/
def ask (c : Catalog) (definition : Definition) : TreeCall :=
  ⟨id, reader, c, .none, 3, definition, ∅, none⟩

theorem parsesNoStyles : reader.ParsesNoStyles := Renderer.parsesNoStyles_of_parse rfl

/-- Two items, and between them a page that fails when it has begun with an item of its own. -/
def twoItems : List TreeCall := [ask catalog item, ask catalog page, ask catalog item]

end Sample

open Sample in
/-- Each item has its own sheet, but there is one shared sheet in the two trees. -/
theorem sharedSheets_nodup_items :
    (serve twoItems fresh).1.length = 2 ∧
      ((Node.stylesForest (serve twoItems fresh).1).map (·.2.scope)) = [.global, .unique, .unique] ∧
      (∃ os, Retained fresh twoItems os) ∧ ∀ os, Retained fresh twoItems os →
        ∃ sheets : List (SheetSource × StyleElement),
          sheets.map Prod.snd = Node.stylesForest (serve twoItems fresh).1 ∧
          sheets.Subperm (writtenSheets os) ∧
          ((sheets.filter isShared).map Prod.fst).Nodup := by
  have hparse : ∀ k ∈ twoItems, k.renderer.ParsesNoStyles := by
    simp [twoItems, ask, parsesNoStyles]
  exact ⟨by decide +kernel, by decide +kernel, sharedSheets_nodup fresh twoItems hparse⟩

/-! ## What can be missing -/

/--
**When a shared stylesheet is missing.** In a session that began with nothing on record, a
definition with shared sheets that was expanded in a call that returned is on record, and for every
definition on record some host received each of its shared sheets. The sheet is in a returned tree
exactly if not every element that says the same was in content that a component dropped.
-/
theorem sharedSheets_returned_iff {p : Progress} (hp : p.session.emitted = [])
    (calls : List TreeCall) (hstyles : ∀ k ∈ calls, k.renderer.options.emitStyles = true)
    (hparse : ∀ k ∈ calls, k.renderer.parse = Markup.parse) :
    (∃ os, Retained p calls os) ∧ ∀ os, Retained p calls os →
      (∀ o ∈ os, o.definition.sharesSheets = true →
        o.definition.id ∈ (serve calls p).2.session.emitted) ∧
      ∀ id ∈ (serve calls p).2.session.emitted, ∃ o ∈ os, o.definition.id = id ∧
        ∀ entry t, o.definition.css[entry]? = some t → Style.Scope.ofMask t.mask = .global →
          t.run?.isSome = true → ∃ element, (⟨id, entry⟩, element) ∈ writtenSheets os ∧
            (element ∈ Node.stylesForest (serve calls p).1 ↔ (droppedStyles os).count element <
              ((writtenSheets os).map Prod.snd).count element) := by
  refine ⟨exists_retained calls p, fun os h => ?_⟩
  have hok := fun o ho => (h.parts_ok o ho).2
  refine ⟨fun o ho hs => h.linked.mem_emitted_of_mem hok ho hs, fun id hid => ?_⟩
  rw [h.linked.mem_emitted hok, hp] at hid
  rcases hid with hid | ⟨o, ho, rfl, hr⟩
  · simp at hid
  · refine ⟨o, ho, rfl, fun entry t ht _ hrun => ?_⟩
    obtain ⟨⟨k, hk, hrenderer⟩, answer, w, hparts⟩ := h.parts_ok o ho
    obtain ⟨element, helement⟩ := Occurrence.shared_of_records hparts hr ht hrun
    have hwritten : o.writtenSheets = o.sheets := by
      rw [Occurrence.writtenSheets, hrenderer, hstyles k hk, if_pos rfl]
    refine ⟨element, List.mem_flatMap.mpr ⟨o, ho, hwritten ▸ helement⟩, ?_⟩
    have hcount := (h.perm_styles fun k hk =>
      Renderer.parsesNoStyles_of_parse (hparse k hk)).count_eq element
    rw [List.count_append] at hcount
    rw [← List.count_pos_iff]
    omega

open Sample in
/-- Nothing is dropped when the items are shown, so their shared sheet is there. -/
theorem sharedSheets_returned_items :
    fresh.session.emitted = [] ∧ (∀ k ∈ twoItems, k.renderer.options.emitStyles = true) ∧
      (∀ k ∈ twoItems, k.renderer.parse = Markup.parse) ∧
      (serve twoItems fresh).2.session.emitted = [item.id] ∧
      (∃ os, Retained fresh twoItems os) ∧ ∀ os, Retained fresh twoItems os →
        (∀ o ∈ os, o.definition.sharesSheets = true →
          o.definition.id ∈ (serve twoItems fresh).2.session.emitted) ∧
        ∀ id ∈ (serve twoItems fresh).2.session.emitted, ∃ o ∈ os, o.definition.id = id ∧
          ∀ entry t, o.definition.css[entry]? = some t → Style.Scope.ofMask t.mask = .global →
            t.run?.isSome = true → ∃ element, (⟨id, entry⟩, element) ∈ writtenSheets os ∧
              (element ∈ Node.stylesForest (serve twoItems fresh).1 ↔
                (droppedStyles os).count element <
                  ((writtenSheets os).map Prod.snd).count element) := by
  have hstyles : ∀ k ∈ twoItems, k.renderer.options.emitStyles = true := by
    simp [twoItems, ask, reader, Options.standard]
  have hparse : ∀ k ∈ twoItems, k.renderer.parse = Markup.parse := by
    simp [twoItems, ask, reader]
  exact ⟨rfl, hstyles, hparse, by decide +kernel,
    sharedSheets_returned_iff rfl twoItems hstyles hparse⟩

mutual

/-- The names of the expanded components in a node, in document order. -/
def Node.hostNames : Node → List String
  | .element tag children =>
    (if tag.expanded then [tag.name] else []) ++ Node.hostNamesForest children
  | _ => []

/-- The names of the expanded components in a forest, in document order. -/
def Node.hostNamesForest : List Node → List String
  | [] => []
  | n :: rest => n.hostNames ++ Node.hostNamesForest rest

end

namespace Sample

/-- A component that has no place for content. -/
def label : Definition := component 4 "x-label" (.ofString "label") []

/-- A list that gives an item to a label before it shows one of its own. -/
def list : Definition :=
  component 5 "x-list" (.ofString "<x-label><x-item></x-item></x-label><x-item></x-item>") []

def listCatalog : Catalog := ⟨catalog.entries ++ [⟨label, none⟩, ⟨list, some [4, 0]⟩]⟩

end Sample

open Sample in
/-- An item is shown and its shared sheet is on record, but the sheet is nowhere. -/
theorem sharedSheet_missing :
    let done := serve [ask listCatalog list] fresh
    Node.hostNamesForest done.1 = ["x-list", "x-label", "x-item"] ∧
      (∃ t ∈ item.css, Style.Scope.ofMask t.mask = .global ∧ t.run?.isSome = true) ∧
      done.2.session.isGlobalEmitted item.id = true ∧
      (Node.stylesForest done.1).map (·.2.scope) = [.unique] := by
  decide +kernel

end CustomElements
