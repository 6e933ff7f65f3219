import CustomElements.Markup.Reader.Parser
import CustomElements.Proofs.Expansion.Sheets

/-!
# Where stylesheets end up

Every `<style>` element in what an expansion returns was in its task or was made by one of its
occurrences, and none is there twice. The only way for one to be missing is that the content that it
stood in had no place to go. `Expands.perm_styles` is an account of all of them. It supposes that no
markup brings `<style>` elements of its own, as is the case for markup that is read from text.
-/

namespace CustomElements

/-! ## Sheets and their sources -/

/-- What a stylesheet comes from: an entry in the list of a definition's stylesheets. -/
structure SheetSource where
  definition : Nat
  entry : Nat
  deriving DecidableEq, Repr

/-- The `<style>` elements of what entries have made, each with its source. -/
def labelled (definition : Nat) :
    (entry : Nat) → List (Option ScopedSheet) → List (SheetSource × StyleElement)
  | _, [] => []
  | entry, none :: rest => labelled definition (entry + 1) rest
  | entry, some sheet :: rest =>
    (⟨definition, entry⟩, (∅, sheet)) :: labelled definition (entry + 1) rest

theorem mem_labelled {definition entry : Nat} {made : List (Option ScopedSheet)}
    {source : SheetSource} {element : StyleElement} :
    (source, element) ∈ labelled definition entry made ↔
      ∃ i sheet, made[i]? = some (some sheet) ∧ source = ⟨definition, entry + i⟩ ∧
        element = (∅, sheet) := by
  induction made generalizing entry with
  | nil => simp [labelled]
  | cons head rest ih =>
      have hshift : (∃ i sheet, rest[i]? = some (some sheet) ∧
            source = ⟨definition, entry + 1 + i⟩ ∧ element = (∅, sheet)) ↔
          ∃ i sheet, (head :: rest)[i + 1]? = some (some sheet) ∧
            source = ⟨definition, entry + (i + 1)⟩ ∧ element = (∅, sheet) := by
        simp only [List.getElem?_cons_succ, Nat.add_assoc, Nat.add_comm 1]
      rcases head with - | sheet
      · rw [labelled, ih, hshift]
        constructor
        · rintro ⟨i, h⟩
          exact ⟨i + 1, h⟩
        · rintro ⟨_ | i, sheet, hi, h⟩
          · simp at hi
          · exact ⟨i, sheet, hi, h⟩
      · rw [labelled, List.mem_cons, ih, hshift]
        constructor
        · rintro (h | ⟨i, h⟩)
          · obtain ⟨rfl, rfl⟩ := Prod.mk.inj h
            exact ⟨0, sheet, rfl, rfl, rfl⟩
          · exact ⟨i + 1, h⟩
        · rintro ⟨_ | i, s, hi, hsource, helement⟩
          · cases hi
            exact .inl (by rw [hsource, helement]; rfl)
          · exact .inr ⟨i, s, hi, hsource, helement⟩

theorem map_snd_labelled (definition entry : Nat) (made : List (Option ScopedSheet)) :
    (labelled definition entry made).map Prod.snd =
      Node.stylesForest (made.reduceOption.map (Node.style ∅)) := by
  induction made generalizing entry with
  | nil => rfl
  | cons head rest ih =>
      rcases head with - | sheet
      · rw [labelled, ih, List.reduceOption_cons_of_none]
      · rw [labelled, List.map_cons, ih, List.reduceOption_cons_of_some]
        rfl

/-- No entry makes two sheets at once. -/
theorem nodup_labelled (definition entry : Nat) (made : List (Option ScopedSheet)) :
    ((labelled definition entry made).map Prod.fst).Nodup := by
  induction made generalizing entry with
  | nil => exact List.nodup_nil
  | cons head rest ih =>
      rcases head with - | sheet
      · exact ih (entry + 1)
      · rw [labelled, List.map_cons, List.nodup_cons]
        refine ⟨fun h => ?_, ih (entry + 1)⟩
        obtain ⟨⟨source, element⟩, hmem, rfl⟩ := List.mem_map.mp h
        obtain ⟨i, s, -, hsource, -⟩ := mem_labelled.mp hmem
        have hentry := congrArg SheetSource.entry hsource
        dsimp only at hentry
        omega

namespace Occurrence

/-- The `<style>` elements that the occurrence makes, each with its source. -/
def sheets (o : Occurrence) : List (SheetSource × StyleElement) :=
  labelled o.definition.id 0 o.made

/-- Those that its host holds. -/
def writtenSheets (o : Occurrence) : List (SheetSource × StyleElement) :=
  if o.renderer.options.emitStyles then o.sheets else []

theorem stylesForest_written {o : Occurrence} {own : Option (List Node)} {scoping : StyleScoping}
    {w : Work} (h : o.parts = (.ok (own, scoping), w)) :
    Node.stylesForest (o.written scoping) = o.writtenSheets.map Prod.snd := by
  obtain ⟨-, hstyles, -, -⟩ := parts_ok h
  unfold written writtenSheets
  split
  · rw [hstyles, sheets, map_snd_labelled]
  · rfl

end Occurrence

/-- The sheets that occurrences write. -/
def writtenSheets (os : List Occurrence) : List (SheetSource × StyleElement) :=
  os.flatMap Occurrence.writtenSheets

/-- The `<style>` elements in the content that occurrences drop. -/
def droppedStyles (os : List Occurrence) : List StyleElement :=
  os.flatMap fun o => Node.stylesForest o.dropped

@[simp] theorem writtenSheets_nil : writtenSheets [] = [] := rfl

@[simp] theorem writtenSheets_append (os os' : List Occurrence) :
    writtenSheets (os ++ os') = writtenSheets os ++ writtenSheets os' := List.flatMap_append

@[simp] theorem writtenSheets_cons (o : Occurrence) (os : List Occurrence) :
    writtenSheets (o :: os) = o.writtenSheets ++ writtenSheets os := List.flatMap_cons

@[simp] theorem droppedStyles_nil : droppedStyles [] = [] := rfl

@[simp] theorem droppedStyles_append (os os' : List Occurrence) :
    droppedStyles (os ++ os') = droppedStyles os ++ droppedStyles os' := List.flatMap_append

@[simp] theorem droppedStyles_cons (o : Occurrence) (os : List Occurrence) :
    droppedStyles (o :: os) = Node.stylesForest o.dropped ++ droppedStyles os := List.flatMap_cons

/-! ## The account -/

/-- The `<style>` elements in what is to be expanded. -/
def Task.styles : Task → List StyleElement
  | .node n => n.styles
  | .forest nodes => Node.stylesForest nodes
  | .component _ _ _ content => Node.stylesForest content

/-- The parser makes no `<style>` element. -/
def Renderer.ParsesNoStyles (r : Renderer) : Prop :=
  ∀ markup, Node.stylesForest (r.parse markup) = []

theorem Markup.Grove.stylesForest_nodes (g : Grove) (fuel : Nat) (ids : List Nat) :
    Node.stylesForest (g.nodes fuel ids) = [] := by
  induction fuel generalizing ids with
  | zero => rfl
  | succ fuel ih =>
      cases ids with
      | nil => rfl
      | cons id rest =>
          unfold nodes
          split
          · rw [Node.stylesForest, Node.styles, ih rest, List.append_nil]
            split
            · rfl
            · exact ih _
          · rw [Node.stylesForest, Node.styles, ih rest, List.append_nil]
          · exact ih rest

/-- Markup that is read from text has no `<style>` element but as plain elements. -/
theorem Renderer.parsesNoStyles_of_parse {r : Renderer} (h : r.parse = Markup.parse) :
    r.ParsesNoStyles := by
  intro markup
  rw [h]
  exact Markup.Grove.stylesForest_nodes _ _ _

variable {r : Renderer} {d : Deliveries} {theme : Option Theme}

/-- What an occurrence with markup of its own does with the `<style>` elements of its content. -/
theorem Occurrence.count_distribute {o : Occurrence} {own : List Node} {scoping : StyleScoping}
    {w : Work} (h : o.parts = (.ok (some own, scoping), w)) (hparse : o.renderer.ParsesNoStyles)
    (v : StyleElement) :
    (Node.stylesForest (o.distribute own scoping w.progress.session.tagMap).nodes).count v +
        (Node.stylesForest o.dropped).count v =
      (Node.stylesForest o.content).count v := by
  obtain ⟨-, -, hown, -⟩ := parts_ok h
  obtain ⟨markup, rfl⟩ := hown own rfl
  have hmarkup : Node.stylesForest (scopeMarkup (o.renderer.parse markup) scoping.classes
      w.progress.session.tagMap.contains) = [] := by
    rw [stylesForest_scopeMarkup, hparse]
  have hd := (Distribution.perm_styles _ o.content hmarkup).count_eq v
  rw [List.count_append] at hd
  rw [dropped, h]
  exact hd

/-- How often an element is there after an expansion, and how often it was dropped. -/
theorem Expands.count_styles {task : Task} {p p' : Progress} {ns : List Node}
    {os : List Occurrence} (h : Expands r d theme task p (.ok ns) p' os)
    (hparse : r.ParsesNoStyles) (v : StyleElement) :
    (Node.stylesForest ns).count v + (droppedStyles os).count v =
      task.styles.count v + ((writtenSheets os).map Prod.snd).count v := by
  induction h using Expands.induction_ok with
  | kept _ => simp [Task.styles, Node.stylesForest]
  | plain _ _ _ ih => simpa [Task.styles, Node.stylesForest, Node.styles] using ih
  | custom _ _ _ _ ih ih' =>
      simp only [Task.styles, Node.styles, writtenSheets_append, droppedStyles_append,
        List.map_append, List.count_append] at ih ih' ⊢
      omega
  | nil => rfl
  | cons _ _ ih ih' =>
      simp only [Task.styles, Node.stylesForest, Node.stylesForest_append, writtenSheets_append,
        droppedStyles_append, List.map_append, List.count_append] at ih ih' ⊢
      omega
  | @passed _ _ _ _ _ o _ _ begins parts =>
      have hdropped : o.dropped = [] := by simp only [Occurrence.dropped, parts]
      simp only [Task.styles, Node.stylesForest, Renderer.host, Node.styles, List.append_nil,
        Node.stylesForest_append, Occurrence.stylesForest_written parts, writtenSheets_cons,
        writtenSheets_nil, droppedStyles_cons, droppedStyles_nil, hdropped, List.count_append,
        List.count_nil]
      omega
  | @filled _ _ _ content _ _ _ _ o _ _ _ begins parts _ ih =>
      have hcontent : o.content = content := by rw [begins]; rfl
      -- the body is the markup with the content in it, so what is dropped leaves the account here
      have hd := o.count_distribute parts (by rw [begins]; exact hparse) v
      rw [hcontent] at hd
      simp only [Task.styles, Node.stylesForest, Renderer.host, Node.styles, List.append_nil,
        Node.stylesForest_append, Occurrence.stylesForest_written parts, writtenSheets_cons,
        droppedStyles_cons, List.map_append, List.count_append] at ih ⊢
      omega

/-- **An expansion loses no stylesheet but what it drops, and copies none.** -/
theorem Expands.perm_styles {task : Task} {p p' : Progress} {ns : List Node}
    {os : List Occurrence} (h : Expands r d theme task p (.ok ns) p' os)
    (hparse : r.ParsesNoStyles) :
    (Node.stylesForest ns ++ droppedStyles os).Perm
      (task.styles ++ (writtenSheets os).map Prod.snd) := by
  rw [List.perm_iff_count]
  intro v
  rw [List.count_append, List.count_append]
  exact h.count_styles hparse v

/-- In an expansion that succeeds, every occurrence has rendered its parts. -/
theorem Expands.parts_ok {task : Task} {p p' : Progress} {ns : List Node} {os : List Occurrence}
    (h : Expands r d theme task p (.ok ns) p' os) :
    ∀ o ∈ os, o.renderer = r ∧ ∃ answer w, o.parts = (.ok answer, w) := by
  induction h using Expands.induction_ok with
  | kept _ | nil => simp
  | plain _ _ _ ih => exact ih
  | custom _ _ _ _ ih ih' | cons _ _ ih ih' => exact List.forall_mem_append.mpr ⟨ih, ih'⟩
  | passed begins parts =>
      exact List.forall_mem_singleton.mpr ⟨by rw [begins]; rfl, _, _, parts⟩
  | filled begins parts _ ih =>
      exact List.forall_mem_cons.mpr ⟨⟨by rw [begins]; rfl, _, _, parts⟩, ih⟩

end CustomElements
