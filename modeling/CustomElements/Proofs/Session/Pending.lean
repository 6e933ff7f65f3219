import CustomElements.Proofs.Expansion.Conservation
import CustomElements.Proofs.Expansion.Renditions
import CustomElements.Proofs.Session.SharedSheets

/-!
# Pending texts

A pending text goes on the session's list when a template is rendered to a text that holds it. What
becomes of the text is decided afterwards. It is read as markup or as a stylesheet, if at all; and
the nodes that are made of it may be content that a component has no place for, a fallback that
other content displaces, or children of an element that is printed without them.

`Expands.count_passages` keeps an account of that. An occurrence brings passages into the tree,
those of its renditions and the attributes of its host; and it takes passages out, the attributes
that it was given and what is dropped or displaced. So a passage is printed exactly if it comes into
the tree more often than it is taken out or hidden, and a pending text in such a passage is in the
output (`Renderer.render_pending`).
-/

namespace CustomElements

/-! ## The account of passages -/

namespace Occurrence

/-- What is in placeholders of its markup that are filled with content. -/
def displaced (o : Occurrence) : List Node :=
  match o.parts with
  | (.ok (some own, scoping), w) => Distribution.displaced
    (scopeMarkup own scoping.classes w.progress.session.tagMap.contains) o.content
  | _ => []

/-- The passages that it brings into the tree. -/
def madePassages (o : Occurrence) : List String :=
  o.parts.2.inst.hostAttributes.values ++ o.renditions.flatMap Rendition.passages

/-- The passages that it takes out of the tree. -/
def lostPassages (o : Occurrence) : List String :=
  o.start.inst.explicitAttributes.values ++ Node.passagesForest (o.displaced ++ o.dropped)

/-- The markup with the content in its slots, and what is lost of both. -/
theorem perm_passages_distribute {o : Occurrence} {own : List Node} {scoping : StyleScoping}
    {w : Work} (h : o.parts = (.ok (some own, scoping), w)) :
    (Node.passagesForest (o.distribute own scoping w.progress.session.tagMap).nodes ++
        Node.passagesForest (o.displaced ++ o.dropped)).Perm
      (Node.passagesForest (scopeMarkup own scoping.classes
        w.progress.session.tagMap.contains) ++ Node.passagesForest o.content) := by
  have hperm := Distribution.perm_displaced Node.additive_passages
    (scopeMarkup own scoping.classes w.progress.session.tagMap.contains) o.content
  simp only [← Node.passagesForest_eq_flatMap] at hperm
  simp only [displaced, dropped, h]
  exact hperm

end Occurrence

/-- The passages of what is to be expanded. -/
def Task.passages : Task → List String
  | .node n => n.passages
  | .forest nodes => Node.passagesForest nodes
  | .component _ _ attributes content =>
    (attributes.map attributeText).values ++ Node.passagesForest content

variable {r : Renderer} {d : Deliveries} {theme : Option Theme}

/-- How often a passage is there after an expansion, and how often it was taken out. -/
theorem Expands.count_passages {task : Task} {p p' : Progress} {ns : List Node}
    {os : List Occurrence} (h : Expands r d theme task p (.ok ns) p' os) (v : String) :
    (Node.passagesForest ns).count v + (os.flatMap Occurrence.lostPassages).count v =
      task.passages.count v + (os.flatMap Occurrence.madePassages).count v := by
  induction h using Expands.induction_ok with
  | kept _ => simp [Task.passages, Node.passagesForest]
  | plain _ _ _ ih =>
      simp only [Task.passages, Node.passagesForest, Node.passages, List.append_nil,
        List.count_append] at ih ⊢
      omega
  | @custom tag _ _ _ _ _ _ _ _ _ _ _ _ _ ih ih' =>
      -- the attributes are handed to the component as they are
      have hattributes : ((tag.attributes.map Json.string).map attributeText).values =
          tag.attributes.values := by
        simp [Fields.values, Fields.map, Function.comp_def, attributeText]
      simp only [Task.passages, Node.passages, hattributes, List.flatMap_append,
        List.count_append] at ih ih' ⊢
      omega
  | nil => rfl
  | cons _ _ ih ih' =>
      simp only [Task.passages, Node.passagesForest, Node.passagesForest_append,
        List.flatMap_append, List.count_append] at ih ih' ⊢
      omega
  | @passed _ _ attributes _ _ o _ _ begins parts =>
      obtain ⟨-, hmade⟩ := Occurrence.renditions_ok parts
      have hgiven : o.start.inst.explicitAttributes = attributes.map attributeText := by
        rw [begins]
        rfl
      -- without markup of its own there is nothing that content could displace or miss
      have hlost : o.displaced ++ o.dropped = [] := by
        simp only [Occurrence.displaced, Occurrence.dropped, parts, List.append_nil]
      simp only [Option.getD_none, scopeMarkup_nil, Node.passagesForest, List.nil_append] at hmade
      simp only [Task.passages, Node.passagesForest, Renderer.host, Node.passages,
        List.append_nil, Node.passagesForest_append, List.flatMap_singleton,
        Occurrence.lostPassages, Occurrence.madePassages, hlost, hgiven, hmade, parts,
        List.count_append]
      omega
  | @filled _ _ attributes content _ _ _ _ o _ _ _ begins parts _ ih =>
      obtain ⟨-, hmade⟩ := Occurrence.renditions_ok parts
      have hgiven : o.start.inst.explicitAttributes = attributes.map attributeText := by
        rw [begins]
        rfl
      have hcontent : o.content = content := by rw [begins]; rfl
      -- the body is the markup with the content in it, so what is lost of both leaves here
      have hd := (Occurrence.perm_passages_distribute parts).count_eq v
      rw [hcontent] at hd
      simp only [Option.getD_some] at hmade
      simp only [Task.passages, Node.passagesForest, Renderer.host, Node.passages,
        List.append_nil, Node.passagesForest_append, List.flatMap_cons,
        Occurrence.lostPassages, Occurrence.madePassages, hgiven, hmade, parts,
        List.count_append] at ih hd ⊢
      omega

/-! ## The list of pending texts -/

/-- Every occurrence began when a component was met. -/
theorem Expands.begun {task : Task} {p p' : Progress} {result : Except Stop (List Node)}
    {os : List Occurrence} (h : Expands r d theme task p result p' os) :
    ∀ o ∈ os, ∃ definition tagName attributes content p,
      o = r.begin d theme definition tagName attributes content p := by
  intro o ho
  have hnothing : Kept r d theme fun _ => True := ⟨fun _ _ => trivial, fun _ _ => trivial⟩
  obtain ⟨definition, tagName, attributes, content, q, -, -, begins⟩ :=
    hnothing.begins h (fun _ _ => trivial) trivial task.named_true o ho
  exact ⟨definition, tagName, attributes, content, q, begins⟩

/-- What is pending in the end was pending before, or was reported by an occurrence. -/
theorem Linked.pending_eq {os : List Occurrence} {before after : List PendingText}
    (h : Linked Session.pending before os after)
    (hok : ∀ o ∈ os, ∃ answer w, o.parts = (.ok answer, w)) :
    after = before ++ os.flatMap Occurrence.pending := by
  induction os generalizing before with
  | nil => exact h.trans (List.append_nil _).symm
  | cons o os ih =>
      obtain ⟨rfl, hos⟩ := h
      obtain ⟨⟨own, scoping⟩, w, hparts⟩ := hok o List.mem_cons_self
      rw [ih hos fun o' ho' => hok o' (List.mem_cons_of_mem o ho'),
        (Occurrence.renditions_ok hparts).1, List.flatMap_cons, List.append_assoc]

/--
The passage comes into the tree, by the attributes of the call or by an occurrence, more often than
it is taken out of the tree or hidden in it.
-/
def Remains (attributes : Props) (os : List Occurrence) (n : Node) (v : String) : Prop :=
  (os.flatMap Occurrence.lostPassages).count v + n.hidden.count v <
    (attributes.map attributeText).values.count v + (os.flatMap Occurrence.madePassages).count v

/-- **A passage is printed exactly if it remains.** -/
theorem Expands.mem_printed_iff {definition : Definition} {tagName : String} {attributes : Props}
    {p p' : Progress} {n : Node} {os : List Occurrence}
    (h : Expands r d theme (.component definition tagName attributes []) p (.ok [n]) p' os)
    (v : String) : v ∈ n.printed ↔ Remains attributes os n v := by
  have hcount := h.count_passages v
  have hprinted := n.perm_printed.count_eq v
  simp only [Task.passages, Node.passagesForest, List.append_nil, List.count_append]
    at hcount hprinted
  rw [← List.count_pos_iff, Remains]
  omega

/--
**When a pending text is in the output.** The pending texts that are handed over after a call that
succeeds are those in the texts that the templates of its components were rendered to. What is
written for one now stands in such a text; and if it stands in a passage that remains, then it is in
the output. The passages that remain are those that are printed.
-/
theorem Renderer.render_pending {c : Catalog} {depth : Nat} {definition : Definition}
    {attributes : Props} {p p' : Progress} (hp : p.session.pending = []) {html : String}
    (h : r.render c d depth definition attributes theme p = (.ok html, p')) :
    ∃ n os, html = n.toHtml ∧
      Expands r d theme (r.rootTask definition attributes) (p.register c definition) (.ok [n]) p'
        os ∧
      p'.session.takePending.1 = os.flatMap Occurrence.pending ∧
      (∀ v, v ∈ n.printed ↔ Remains attributes os n v) ∧
      ∀ x ∈ p'.session.takePending.1,
        (∃ o ∈ os, ∃ made ∈ o.renditions, x ∈ made.text.pending ∧
          (d.current x).toList <:+: made.text.text.toList) ∧
        (Alphanumeric (d.current x).toList → ∀ v, (d.current x).toList <:+: v.toList →
          Remains attributes os n v → (d.current x).toList <:+: html.toList) := by
  obtain ⟨q, os, ⟨n, heq, hx⟩ | ⟨stop, heq, -⟩⟩ :=
    r.elementToTag_cases c d depth definition attributes theme p
  · rw [render, heq] at h
    obtain ⟨hhtml, rfl⟩ := Prod.mk.inj h
    obtain rfl := Except.ok.inj hhtml
    -- the occurrences are the history of the list, which began empty
    have hok := fun o ho => (hx.parts_ok o ho).2
    have hpending : q.session.takePending.1 = os.flatMap Occurrence.pending := by
      have hlinked : Linked Session.pending p.session.pending os q.session.pending :=
        hx.linked.map Session.pending
      rw [hp] at hlinked
      exact hlinked.pending_eq hok
    refine ⟨n, os, rfl, hx, hpending, hx.mem_printed_iff, fun x hmem => ⟨?_, ?_⟩⟩
    · rw [hpending] at hmem
      obtain ⟨o, ho, hmem⟩ := List.mem_flatMap.mp hmem
      obtain ⟨made, hmade, hmem⟩ := List.mem_flatMap.mp hmem
      obtain ⟨_, _, _, _, _, hbegins⟩ := hx.begun o ho
      have hdeliveries : o.deliveries = d := by rw [hbegins]; rfl
      have hholds := o.holds_renditions made hmade
      rw [hdeliveries] at hholds
      exact ⟨o, ho, made, hmade, hmem, hholds x hmem⟩
    · intro hword v hv hremains
      exact Node.infix_toHtml hword ((hx.mem_printed_iff v).mpr hremains) hv
  · rw [render, heq] at h
    cases (Prod.mk.inj h).1

namespace Sample

/-- A message that has not come yet. -/
def message : PendingText := ⟨0, "loading"⟩

/-- A component that gives the message to another one. -/
def post (id : Nat) (receiver : String) : Definition :=
  component id "x-post" (fun _ call => ⟨call.inst.ownAttributes, .ok (.fragment
    ⟨"<" ++ receiver ++ ">", [(.pending message, "</" ++ receiver ++ ">")]⟩)⟩) []

/-- A component that has a place for it. -/
def frame : Definition := component 6 "x-frame" (.ofString "<slot>nothing</slot>") []

def postCatalog : Catalog :=
  ⟨listCatalog.entries ++
    [⟨frame, none⟩, ⟨post 7 "x-frame", some [6]⟩, ⟨post 8 "x-label", some [4]⟩]⟩

end Sample

open Sample in
/-- The message takes the place of a fallback, and is in the output. -/
theorem render_pending_post :
    fresh.session.pending = [] ∧ ∃ html p',
      reader.render postCatalog Deliveries.none 3 (post 7 "x-frame") ∅ none fresh = (.ok html, p') ∧
      html = "<x-post><x-frame><slot>loading</slot></x-frame></x-post>" ∧
      p'.session.takePending.1 = [message] ∧
      ∃ n os, html = n.toHtml ∧
        Expands reader .none none (reader.rootTask (post 7 "x-frame") ∅)
          (fresh.register postCatalog (post 7 "x-frame")) (.ok [n]) p' os ∧
        p'.session.takePending.1 = os.flatMap Occurrence.pending ∧
        (∀ v, v ∈ n.printed ↔ Remains ∅ os n v) ∧
        ∀ x ∈ p'.session.takePending.1,
          (∃ o ∈ os, ∃ made ∈ o.renditions, x ∈ made.text.pending ∧
            (Deliveries.none.current x).toList <:+: made.text.text.toList) ∧
          (Alphanumeric (Deliveries.none.current x).toList → ∀ v,
            (Deliveries.none.current x).toList <:+: v.toList → Remains ∅ os n v →
              (Deliveries.none.current x).toList <:+: html.toList) := by
  have hhtml : (reader.render postCatalog Deliveries.none 3 (post 7 "x-frame") ∅ none fresh).1 =
      .ok "<x-post><x-frame><slot>loading</slot></x-frame></x-post>" := by decide +kernel
  have hpending : (reader.render postCatalog Deliveries.none 3 (post 7 "x-frame") ∅ none
      fresh).2.session.takePending.1 = [message] := by decide +kernel
  rcases hrun : reader.render postCatalog Deliveries.none 3 (post 7 "x-frame") ∅ none fresh
    with ⟨result, p'⟩
  rw [hrun] at hhtml hpending
  dsimp only at hhtml
  subst hhtml
  exact ⟨rfl, _, p', rfl, rfl, hpending, Renderer.render_pending rfl hrun⟩

open Sample in
/-- The label has no place for the message, which is handed over nevertheless. -/
theorem pending_missing :
    let done := reader.render postCatalog Deliveries.none 3 (post 8 "x-label") ∅ none fresh
    fresh.session.pending = [] ∧
      done.1 = .ok "<x-post><x-label>label</x-label></x-post>" ∧
      done.2.session.takePending.1 = [message] ∧
      Deliveries.none.current message = "loading" ∧
      ¬ "loading".toList <:+: "<x-post><x-label>label</x-label></x-post>".toList := by
  decide +kernel

end CustomElements
