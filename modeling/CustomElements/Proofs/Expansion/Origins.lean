import CustomElements.Proofs.Component.HostAttributes
import CustomElements.Proofs.Expansion.Completeness
import CustomElements.Proofs.Expansion.Identifiers

/-!
# Which element a host stands for

Every component that is nested in another one is expanded in place of an element of that one's
markup. `Traces` follows an expansion that succeeds and notes for each nested component which
element that was (`Origin`). Its hosts are all that is marked as expanded in the result
(`Traces.hosts`).

An element of a component's own that is replaced in this way has the scoping classes. They are
handed to the nested component as a part of its `class` attribute, and so they are on its host
unless the nested component puts something else there (`Renderer.elementToTag_classes`).
-/

namespace CustomElements

/-- An element in a component's markup in whose place another component was expanded. -/
structure Origin where
  /-- The component whose markup the element is in. -/
  owner : Occurrence
  /-- The element's tag, with scoping classes if it has any. -/
  element : Tag
  /-- The element is not inside another custom element. -/
  own : Bool
  /-- The component that was expanded. -/
  nested : Occurrence

/-- The instance as rendering leaves it. -/
def Occurrence.rendered (o : Occurrence) : Instance := o.parts.2.inst

/-- The tag of the host that the occurrence ends with. -/
def Occurrence.hostTag (o : Occurrence) : Tag :=
  ⟨o.rendered.tagName, o.rendered.hostAttributes, false, true⟩

/--
What is to be expanded, and whose markup it is in; `own` tells that it is not inside another custom
element there.
-/
inductive Site where
  | node (owner : Occurrence) (own : Bool) (n : Node)
  | forest (owner : Occurrence) (own : Bool) (nodes : List Node)
  | component (definition : Definition) (tagName : String) (attributes : Props)
      (content : List Node)

/-- What is to be expanded. -/
def Site.task : Site → Task
  | .node _ _ n => .node n
  | .forest _ _ nodes => .forest nodes
  | .component definition tagName attributes content =>
    .component definition tagName attributes content

/--
`Traces r d theme site p ns p' ms`: expanding what is at `site` from the progress `p` succeeds with
the nodes `ns` and the progress `p'`, and `ms` are the origins of the components that were expanded
in it.
-/
inductive Traces (r : Renderer) (d : Deliveries) (theme : Option Theme) :
    Site → Progress → List Node → Progress → List Origin → Prop where
  | kept {o : Occurrence} {own : Bool} {n : Node} {p : Progress}
      (settled : ∀ tag children, n = .element tag children → tag.expanded = true) :
      Traces r d theme (.node o own n) p [n] p []
  | plain {o : Occurrence} {own : Bool} {tag : Tag} {children ns : List Node} {p p' : Progress}
      {ms : List Origin} (unexpanded : tag.expanded = false)
      (unknown : p.session.lookup tag.name = none)
      (inside : Traces r d theme (.forest o own children) p ns p' ms) :
      Traces r d theme (.node o own (.element tag children)) p [.element tag ns] p' ms
  | custom {o o' : Occurrence} {own : Bool} {tag : Tag} {children content ns : List Node}
      {p p₁ p₂ : Progress} {nested : Definition} {ms ms' : List Origin}
      (unexpanded : tag.expanded = false) (known : p.session.lookup tag.name = some nested)
      (inside : Traces r d theme (.forest o false children) p content p₁ ms)
      (begins : o' = r.begin d theme nested tag.name (tag.attributes.map .string) content p₁)
      (host : Traces r d theme (.component nested tag.name (tag.attributes.map .string) content)
        p₁ ns p₂ ms') :
      Traces r d theme (.node o own (.element tag children)) p ns p₂
        (ms ++ ⟨o, tag, own, o'⟩ :: ms')
  | nil {o : Occurrence} {own : Bool} {p : Progress} : Traces r d theme (.forest o own []) p [] p []
  | cons {o : Occurrence} {own : Bool} {n : Node} {rest ns ns' : List Node} {p p₁ p₂ : Progress}
      {ms ms' : List Origin} (first : Traces r d theme (.node o own n) p ns p₁ ms)
      (onward : Traces r d theme (.forest o own rest) p₁ ns' p₂ ms') :
      Traces r d theme (.forest o own (n :: rest)) p (ns ++ ns') p₂ (ms ++ ms')
  | passed {definition : Definition} {tagName : String} {attributes : Props}
      {content : List Node} {p : Progress} {o : Occurrence} {scoping : StyleScoping} {w : Work}
      (begins : o = r.begin d theme definition tagName attributes content p)
      (parts : o.parts = (.ok (none, scoping), w)) :
      Traces r d theme (.component definition tagName attributes content) p
        [Renderer.host w.inst (o.written scoping ++ content)]
        (w.progress.endInstance o.start.inst.id) []
  | filled {definition : Definition} {tagName : String} {attributes : Props}
      {content own body : List Node} {p p' : Progress} {o : Occurrence} {scoping : StyleScoping}
      {w : Work} {ms : List Origin}
      (begins : o = r.begin d theme definition tagName attributes content p)
      (parts : o.parts = (.ok (some own, scoping), w))
      (inside : Traces r d theme
        (.forest o true (o.distribute own scoping w.progress.session.tagMap).nodes) w.progress
        body p' ms) :
      Traces r d theme (.component definition tagName attributes content) p
        [Renderer.host w.inst (o.written scoping ++ body)] (p'.endInstance o.start.inst.id) ms

variable {r : Renderer} {d : Deliveries} {theme : Option Theme}

/-- **Every expansion that succeeds can be traced.** -/
theorem Expands.exists_traces {task : Task} {p p' : Progress} {ns : List Node}
    {os : List Occurrence} (h : Expands r d theme task p (.ok ns) p' os) (site : Site)
    (hsite : site.task = task) : ∃ ms, Traces r d theme site p ns p' ms := by
  induction h using Expands.induction_ok generalizing site with
  | kept settled =>
      rcases site with _ | _ | _ <;> cases hsite
      exact ⟨[], .kept settled⟩
  | @plain tag children _ _ _ _ unexpanded unknown _ ih =>
      rcases site with ⟨o, own, _⟩ | _ | _ <;> cases hsite
      obtain ⟨ms, hms⟩ := ih (.forest o own children) rfl
      exact ⟨ms, .plain unexpanded unknown hms⟩
  | @custom tag children content _ _ _ _ nested _ _ unexpanded known _ _ ih ih' =>
      rcases site with ⟨o, own, _⟩ | _ | _ <;> cases hsite
      obtain ⟨ms, hms⟩ := ih (.forest o false children) rfl
      obtain ⟨ms', hms'⟩ := ih'
        (.component nested tag.name (tag.attributes.map .string) content) rfl
      exact ⟨_, .custom unexpanded known hms rfl hms'⟩
  | nil =>
      rcases site with _ | _ | _ <;> cases hsite
      exact ⟨[], .nil⟩
  | @cons n rest _ _ _ _ _ _ _ _ _ ih ih' =>
      rcases site with _ | ⟨o, own, _⟩ | _ <;> cases hsite
      obtain ⟨ms, hms⟩ := ih (.node o own n) rfl
      obtain ⟨ms', hms'⟩ := ih' (.forest o own rest) rfl
      exact ⟨_, .cons hms hms'⟩
  | passed begins parts =>
      rcases site with _ | _ | _ <;> cases hsite
      exact ⟨[], .passed begins parts⟩
  | @filled _ _ _ _ own _ _ _ o scoping w _ begins parts _ ih =>
      rcases site with _ | _ | _ <;> cases hsite
      obtain ⟨ms, hms⟩ := ih (.forest o true
        (o.distribute own scoping w.progress.session.tagMap).nodes) rfl
      exact ⟨ms, .filled begins parts hms⟩

/-- A trace is that of an expansion. -/
theorem Traces.exists_expands {site : Site} {p p' : Progress} {ns : List Node} {ms : List Origin}
    (h : Traces r d theme site p ns p' ms) :
    ∃ os, Expands r d theme site.task p (.ok ns) p' os := by
  induction h with
  | kept settled => exact ⟨[], .kept settled⟩
  | plain unexpanded unknown _ ih =>
      obtain ⟨os, hos⟩ := ih
      exact ⟨os, .plain unexpanded unknown hos⟩
  | custom unexpanded known _ _ _ ih ih' =>
      obtain ⟨os, hos⟩ := ih
      obtain ⟨os', hos'⟩ := ih'
      exact ⟨_, .custom unexpanded known hos hos'⟩
  | nil => exact ⟨[], .nil⟩
  | cons _ _ ih ih' =>
      obtain ⟨os, hos⟩ := ih
      obtain ⟨os', hos'⟩ := ih'
      exact ⟨_, .cons hos hos'⟩
  | passed begins parts => exact ⟨_, .passed begins parts⟩
  | filled begins parts _ ih =>
      obtain ⟨os, hos⟩ := ih
      exact ⟨_, .filled begins parts hos⟩

/-! ## The hosts in the result -/

namespace Node

theorem mem_tagsForest_element {t tag : Tag} {children : List Node} :
    t ∈ tagsForest [.element tag children] ↔ t = tag ∨ t ∈ tagsForest children := by
  rw [tagsForest, tagsForest, List.append_nil, tags, List.mem_cons]

mutual

/-- An element that is marked as expanded is closed. -/
theorem mem_closedTags {t : Tag} (ht : t.expanded = true) :
    (n : Node) → t ∈ n.tags → t ∈ n.closedTags
  | .text _, h => h
  | .style _ _, h => h
  | .styleText _, h => h
  | .element tag children, h => by
      unfold closedTags
      split
      · exact h
      · rename_i hopen
        rcases List.mem_cons.mp h with rfl | h
        · exact absurd ht hopen
        · exact mem_closedTagsForest ht children h

theorem mem_closedTagsForest {t : Tag} (ht : t.expanded = true) :
    (nodes : List Node) → t ∈ tagsForest nodes → t ∈ closedTagsForest nodes
  | [], h => h
  | n :: rest, h => (List.mem_append.mp h).elim
      (fun h => List.mem_append_left _ (mem_closedTags ht n h))
      (fun h => List.mem_append_right _ (mem_closedTagsForest ht rest h))

end

end Node

/-- The expanded elements among `tags` were closed before, or are hosts of nested components. -/
def Hosted (closed : List Tag) (ms : List Origin) (tags : List Tag) : Prop :=
  ∀ t ∈ tags, t.expanded = true → t ∈ closed ∨ ∃ m ∈ ms, t = m.nested.hostTag

section Hosted

variable {closed closed' tags tags' : List Tag} {ms ms' : List Origin}

theorem Hosted.mono (h : Hosted closed ms tags) (hclosed : closed ⊆ closed') (hms : ms ⊆ ms') :
    Hosted closed' ms' tags :=
  fun t ht hexpanded => (h t ht hexpanded).imp (fun h => hclosed h)
    fun ⟨m, hm, heq⟩ => ⟨m, hms hm, heq⟩

theorem hosted_append :
    Hosted closed ms (tags ++ tags') ↔ Hosted closed ms tags ∧ Hosted closed ms tags' :=
  List.forall_mem_append

theorem hosted_forest (nodes : List Node) (ms : List Origin) :
    Hosted (Node.closedTagsForest nodes) ms (Node.tagsForest nodes) :=
  fun _ ht hexpanded => .inl (Node.mem_closedTagsForest hexpanded nodes ht)

end Hosted

/-- What is expanded in the result of an expansion is accounted for; of a host, what is below it. -/
def Site.Accounts (r : Renderer) (d : Deliveries) (theme : Option Theme) (p : Progress)
    (ns : List Node) (ms : List Origin) : Site → Prop
  | .node _ _ n => Hosted n.closedTags ms (Node.tagsForest ns)
  | .forest _ _ nodes => Hosted (Node.closedTagsForest nodes) ms (Node.tagsForest ns)
  | .component definition tagName attributes content => ∃ below,
      ns = [.element (r.begin d theme definition tagName attributes content p).hostTag below] ∧
        Hosted (Node.closedTagsForest content) ms (Node.tagsForest below)

theorem Occurrence.host_eq {o : Occurrence} {own : Option (List Node)} {scoping : StyleScoping}
    {w : Work} (h : o.parts = (.ok (own, scoping), w)) (children : List Node) :
    Renderer.host w.inst children = .element o.hostTag children := by
  rw [hostTag, rendered, h]
  rfl

/-- **All that is marked as expanded is a host of a component that was traced.** -/
theorem Traces.accounts {site : Site} {p p' : Progress} {ns : List Node} {ms : List Origin}
    (h : Traces r d theme site p ns p' ms) (hparse : r.ParsesUnexpanded) :
    site.Accounts r d theme p ns ms := by
  induction h with
  | @kept _ _ n _ settled =>
      have hn := hosted_forest [n] []
      rwa [Node.closedTagsForest, Node.closedTagsForest, List.append_nil] at hn
  | @plain _ _ tag children ns _ _ ms unexpanded _ _ ih =>
      have hinside : Hosted (Node.closedTags (.element tag children)) ms (Node.tagsForest ns) := by
        rw [Node.closedTags, if_neg (by simp [unexpanded])]
        exact ih
      intro t ht hexpanded
      rcases Node.mem_tagsForest_element.mp ht with rfl | ht
      · rw [unexpanded] at hexpanded
        cases hexpanded
      · exact hinside t ht hexpanded
  | @custom _ o' own tag children content ns _ p₁ _ nested ms ms' unexpanded _ _ begins _ ih ih' =>
      obtain ⟨below, rfl, hbelow⟩ := ih'
      intro t ht hexpanded
      rcases Node.mem_tagsForest_element.mp ht with rfl | ht
      · exact .inr ⟨_, List.mem_append_right ms List.mem_cons_self, by rw [begins]⟩
      · rcases hbelow t ht hexpanded with hclosed | ⟨m, hm, heq⟩
        · -- the content is what the children became
          have hchildren := ih t (Node.closedTagsForest_subset content hclosed) hexpanded
          refine hchildren.imp (fun h => ?_) fun ⟨m, hm, heq⟩ => ⟨m, List.mem_append_left _ hm, heq⟩
          rw [Node.closedTags, if_neg (by simp [unexpanded])]
          exact h
        · exact .inr ⟨m, List.mem_append_right ms (List.mem_cons_of_mem _ hm), heq⟩
  | nil => exact fun t ht => absurd ht List.not_mem_nil
  | @cons _ _ n rest ns ns' _ _ _ ms ms' _ _ ih ih' =>
      change Hosted (n.closedTags ++ Node.closedTagsForest rest) (ms ++ ms')
        (Node.tagsForest (ns ++ ns'))
      rw [Node.tagsForest_append]
      exact hosted_append.mpr
        ⟨Hosted.mono ih (List.subset_append_left _ _) (List.subset_append_left _ _),
          Hosted.mono ih' (List.subset_append_right _ _) (List.subset_append_right _ _)⟩
  | @passed _ _ _ content _ o scoping _ begins parts =>
      refine ⟨o.written scoping ++ content, ?_, ?_⟩
      · rw [Occurrence.host_eq parts, begins]
      · rw [Node.tagsForest_append, Occurrence.tagsForest_written parts]
        exact hosted_forest content []
  | @filled _ _ _ content own body _ _ o scoping w ms begins parts _ ih =>
      refine ⟨o.written scoping ++ body, ?_, ?_⟩
      · rw [Occurrence.host_eq parts, begins]
      · rw [Node.tagsForest_append, Occurrence.tagsForest_written parts]
        have hclosed := Occurrence.closedTags_distribute parts (by rw [begins]; exact hparse)
          w.progress.session.tagMap
        have hcontent : o.content = content := by rw [begins]; rfl
        rw [hcontent] at hclosed
        exact Hosted.mono ih hclosed (List.Subset.refl ms)

/-! ## Where nested components begin -/

/-- The nested component began with the element's name and attributes. -/
def Origin.Begins (r : Renderer) (d : Deliveries) (theme : Option Theme) (m : Origin) : Prop :=
  ∃ definition content p, m.nested = r.begin d theme definition m.element.name
    (m.element.attributes.map .string) content p

theorem Traces.begins {site : Site} {p p' : Progress} {ns : List Node} {ms : List Origin}
    (h : Traces r d theme site p ns p' ms) : ∀ m ∈ ms, m.Begins r d theme := by
  induction h with
  | kept _ => simp
  | plain _ _ _ ih => exact ih
  | custom _ _ _ begins _ ih ih' =>
      exact List.forall_mem_append.mpr ⟨ih, List.forall_mem_cons.mpr ⟨⟨_, _, _, begins⟩, ih'⟩⟩
  | nil => simp
  | cons _ _ ih ih' => exact List.forall_mem_append.mpr ⟨ih, ih'⟩
  | passed _ _ => simp
  | filled _ _ _ ih => exact ih

/-! ## Own elements that are replaced -/

/-- The tag is that of an own element of the occurrence, with the scoping classes on it. -/
def Occurrence.Marks (o : Occurrence) (known : TagMap) (t : Tag) : Prop :=
  ∃ own scoping w, o.parts = (.ok (some own, scoping), w) ∧
    ∃ t' ∈ Node.ownTagsForest known.contains own, t = t'.withClasses scoping.classes

/-- All custom elements in `tags` are own elements of the occurrence. -/
def Occurrence.MarksCustom (o : Occurrence) (known : TagMap) (tags : List Tag) : Prop :=
  ∀ t ∈ tags, known.contains t.name = true → o.Marks known t

/--
What is closed before the expansion is settled, and custom elements at places of their owner's own
are its own elements.
-/
def Site.Ready (known : TagMap) : Site → Prop
  | .node o own n => Node.ClosedSettled known [n] ∧
      (own = true → o.MarksCustom known (n.ownTags known.contains))
  | .forest o own nodes => Node.ClosedSettled known nodes ∧
      (own = true → o.MarksCustom known (Node.ownTagsForest known.contains nodes))
  | .component _ _ _ content => Node.Settled known content

theorem Occurrence.marksCustom_distribute {o : Occurrence} {own : List Node}
    {scoping : StyleScoping} {w : Work} {known : TagMap}
    (h : o.parts = (.ok (some own, scoping), w)) (hcontent : Node.Settled known o.content) :
    o.MarksCustom known
      (Node.ownTagsForest known.contains (o.distribute own scoping known).nodes) := by
  refine Distribution.forall_ownTags_resolve (fun t ht _ => ?_) fun t ht hcustom => ?_
  · rw [ownTags_scopeMarkup] at ht
    obtain ⟨t', ht', rfl⟩ := List.mem_map.mp ht
    exact ⟨own, scoping, w, h, t', ht', rfl⟩
  · -- the content holds no element that is still to be expanded
    rw [hcontent.contains_eq_false ht] at hcustom
    cases hcustom

theorem Traces.tagMap_eq {site : Site} {p p' : Progress} {ns : List Node} {ms : List Origin}
    (h : Traces r d theme site p ns p' ms) : p'.session.tagMap = p.session.tagMap := by
  obtain ⟨os, hos⟩ := h.exists_expands
  exact hos.grows.tagMap

/-- **Every own element that is replaced has the scoping classes.** -/
theorem Traces.marks {known : TagMap} {site : Site} {p p' : Progress} {ns : List Node}
    {ms : List Origin} (h : Traces r d theme site p ns p' ms) (hparse : r.ParsesUnexpanded)
    (hknown : p.session.tagMap = known) (hready : site.Ready known) :
    ∀ m ∈ ms, m.own = true → m.owner.Marks known m.element := by
  induction h with
  | kept _ => simp
  | @plain o own tag children _ _ _ _ unexpanded unknown _ ih =>
      obtain ⟨hclosed, hmarks⟩ := hready
      refine ih hknown ⟨(Node.closedSettled_element unexpanded).mp hclosed, fun hown t ht => ?_⟩
      refine hmarks hown t ?_
      have hplain : known.contains tag.name = false := by
        rw [Session.lookup, hknown] at unknown
        rw [Fields.contains, unknown]
        rfl
      rw [Node.ownTags, if_neg (by simp [unexpanded]), if_neg (by simp [hplain])]
      exact List.mem_cons_of_mem tag ht
  | @custom o o' own tag children content _ _ _ _ nested ms ms' unexpanded isKnown inside begins _
      ih ih' =>
      obtain ⟨hclosed, hmarks⟩ := hready
      have hchildren : Node.ClosedSettled known children :=
        (Node.closedSettled_element unexpanded).mp hclosed
      -- the children have been expanded, so no element of the content is to be replaced any more
      have hcontent : Node.Settled known content := by
        obtain ⟨os, hos⟩ := inside.exists_expands
        exact hos.settled hparse hknown hchildren
      have hcustom : known.contains tag.name = true := by
        rw [Session.lookup, hknown] at isKnown
        rw [Fields.contains, isKnown]
        rfl
      refine List.forall_mem_append.mpr ⟨ih hknown ⟨hchildren, nofun⟩, List.forall_mem_cons.mpr
        ⟨fun hown => hmarks hown tag ?_ hcustom, ih' (inside.tagMap_eq.trans hknown) hcontent⟩⟩
      rw [Node.ownTags, if_neg (by simp [unexpanded])]
      exact List.mem_cons_self
  | nil => simp
  | @cons o own n rest _ _ _ _ _ _ _ first _ ih ih' =>
      obtain ⟨hclosed, hmarks⟩ := hready
      obtain ⟨hn, hrest⟩ := Node.closedSettled_cons.mp hclosed
      refine List.forall_mem_append.mpr ⟨ih hknown ⟨hn, fun hown t ht => ?_⟩,
        ih' (first.tagMap_eq.trans hknown) ⟨hrest, fun hown t ht => ?_⟩⟩
      · exact hmarks hown t (List.mem_append_left _ ht)
      · exact hmarks hown t (List.mem_append_right _ ht)
  | passed _ _ => simp
  | @filled _ _ _ content own _ _ _ o scoping w _ begins parts _ ih =>
      have hcontent : Node.Settled known o.content := by rw [begins]; exact hready
      have hsame := (Occurrence.tagMap_parts begins).trans hknown
      rw [parts] at hsame
      refine ih hsame ⟨Occurrence.closedSettled_distribute parts (by rw [begins]; exact hparse)
        hcontent _, fun _ => ?_⟩
      rw [show w.progress.session.tagMap = known from hsame]
      exact Occurrence.marksCustom_distribute parts hcontent

/-! ## Classes on hosts -/

theorem Tag.attribute?_withClasses (t : Tag) {classes : List String} {k : String}
    (hk : k ∈ classes) : (t.withClasses classes).attributes.get? "class" =
      some (joinClasses (t.attribute? "class") classes) := by
  have hne : classes.isEmpty = false := by
    cases classes with
    | nil => cases hk
    | cons _ _ => rfl
  rw [withClasses, hne, if_neg Bool.false_ne_true, withAttribute, Fields.get?_insert, if_pos rfl]

/-- Scoping classes are not empty. -/
theorem Occurrence.class_ne_nil {o : Occurrence} {own : Option (List Node)}
    {scoping : StyleScoping} {w : Work} (h : o.parts = (.ok (own, scoping), w)) {k : String}
    (hk : k ∈ scoping.classes) : k.toList ≠ [] := by
  obtain ⟨scope, rfl⟩ : ∃ scope, k = o.idOf scope := by
    rw [(o.usesIds.carries own scoping w h).classes, List.mem_append] at hk
    rcases hk with hk | hk <;> split_ifs at hk
    · exact ⟨.unique, List.mem_singleton.mp hk⟩
    · exact absurd hk List.not_mem_nil
    · exact ⟨.global, List.mem_singleton.mp hk⟩
    · exact absurd hk List.not_mem_nil
  cases scope <;> simp [idOf, Style.globalId, Style.uniqueId]

/-- What a nested component is handed in an attribute and returns is on its host. -/
theorem Origin.attribute_hostTag {m : Origin} (h : m.Begins r d theme) {key value : String}
    (hvalue : m.element.attributes.get? key = some value)
    (hset : m.nested.rendered.ownAttributes.get? key = none)
    (hreturns : m.nested.rendered.Returns key) : m.nested.hostTag.attribute? key = some value := by
  obtain ⟨definition, content, p, hbegin⟩ := h
  have hinst : m.nested.rendered = { m.nested.start.inst with
      ownAttributes := m.nested.rendered.ownAttributes } := m.nested.grows_parts.inst
  have hstart : m.nested.start.inst = .create p.journal.instances definition.id
      definition.interface m.element.name (m.element.attributes.map .string) theme
      r.options.lang := by rw [hbegin]; rfl
  rw [hstart] at hinst
  have hprops : m.nested.rendered.props = Instance.visibleProps m.nested.rendered.interface
      m.nested.rendered.attributes r.options.lang := by rw [hinst]; rfl
  have hattributes : m.nested.rendered.attributes.get? key = some (.string value) := by
    rw [hinst]
    exact (Fields.get?_map _ _ key).trans (by rw [hvalue]; rfl)
  exact Instance.get?_hostAttributes hprops hattributes hset hreturns

/-- What a call for a definition's tree expands. -/
def Renderer.rootSite (r : Renderer) (definition : Definition) (attributes : Props) : Site :=
  .component definition (definition.resolvedTagName r.options.anonymousTagPrefix) attributes []

/--
The element is one of its owner's own and has the scoping classes. They are words of the `class`
attribute of the host, unless the nested component sets that attribute itself or reflects a property
to it that was not read from it.
-/
def Origin.PassesClasses (m : Origin) (known : TagMap) : Prop :=
  ∃ own scoping w, m.owner.parts = (.ok (some own, scoping), w) ∧
    (∃ t ∈ Node.ownTagsForest known.contains own, m.element = t.withClasses scoping.classes) ∧
    (m.nested.rendered.ownAttributes.get? "class" = none → m.nested.rendered.Returns "class" →
      ∀ k ∈ scoping.classes, ∃ v, m.nested.hostTag.attribute? "class" = some v ∧
        Text.words k.toList ⊆ Text.words v.toList ∧
        ((∀ x ∈ k.toList, Text.isBlank x = false) → k.toList ∈ Text.words v.toList))

theorem Traces.passesClasses {known : TagMap} {site : Site} {p p' : Progress} {ns : List Node}
    {ms : List Origin} (h : Traces r d theme site p ns p' ms) (hparse : r.ParsesUnexpanded)
    (hknown : p.session.tagMap = known) (hready : site.Ready known) {m : Origin} (hm : m ∈ ms)
    (hown : m.own = true) : m.PassesClasses known := by
  obtain ⟨own, scoping, w, hparts, t, ht, helement⟩ := h.marks hparse hknown hready m hm hown
  refine ⟨own, scoping, w, hparts, ⟨t, ht, helement⟩, fun hset hreturns k hk => ?_⟩
  have hvalue := t.attribute?_withClasses hk
  rw [← helement] at hvalue
  have hwords := Tag.words_joinClasses (t.attribute? "class") hk
  refine ⟨_, Origin.attribute_hostTag (h.begins m hm) hvalue hset hreturns, hwords,
    fun hblank => hwords ?_⟩
  rw [Text.words_eq_singleton (Occurrence.class_ne_nil hparts hk) hblank]
  exact List.mem_singleton_self _

/--
**Scoping classes reach the hosts of nested components.** A call that returns a tree can be traced.
The hosts in the tree, its root apart, stand for elements in the markup of components, and those
that stand for a component's own elements have its scoping classes, unless the nested component
writes something else in their place.
-/
theorem Renderer.elementToTag_classes {r : Renderer} (hparse : r.ParsesUnexpanded) (c : Catalog)
    (d : Deliveries) (depth : Nat) (definition : Definition) (attributes : Props)
    (theme : Option Theme) (p : Progress) {n : Node} {p' : Progress}
    (h : r.elementToTag c d depth definition attributes theme p = (.ok n, p')) :
    (∃ ms, Traces r d theme (r.rootSite definition attributes) (p.register c definition) [n] p'
      ms) ∧
    ∀ ms, Traces r d theme (r.rootSite definition attributes) (p.register c definition) [n] p' ms →
      (∃ root below, n = .element root below ∧ ∀ t ∈ Node.tagsForest below, t.expanded = true →
        ∃ m ∈ ms, t = m.nested.hostTag) ∧
      ∀ m ∈ ms, m.own = true → m.PassesClasses p'.session.tagMap := by
  refine ⟨?_, fun ms hms => ⟨?_, fun m hm hown => ?_⟩⟩
  · obtain ⟨q, os, ⟨n', heq, hx⟩ | ⟨stop, heq, -⟩⟩ :=
      r.elementToTag_cases c d depth definition attributes theme p
    · obtain ⟨hn, rfl⟩ := Prod.mk.inj (heq.symm.trans h)
      cases hn
      exact hx.exists_traces (r.rootSite definition attributes) rfl
    · cases heq.symm.trans h
  · obtain ⟨below, heq, hbelow⟩ := hms.accounts hparse
    refine ⟨_, below, List.singleton_inj.mp heq, fun t ht hexpanded => ?_⟩
    exact (hbelow t ht hexpanded).resolve_left List.not_mem_nil
  · have hready : (r.rootSite definition attributes).Ready p'.session.tagMap :=
      fun t ht => absurd ht List.not_mem_nil
    exact hms.passesClasses hparse hms.tagMap_eq.symm hready hm hown

namespace Sample

/-- A component that sets its own class. -/
def beacon : Definition :=
  component 0 "x-beacon" (fun _ call =>
    ⟨call.inst.ownAttributes.insert "class" "lit", .ok (.fragment (.ofString "on"))⟩) []

def lantern : Definition := component 1 "x-lantern" (.ofString "on") []

/-- A component with a shared sheet and two others in its markup. -/
def hall : Definition :=
  component 2 "x-hall" (.ofString "<x-beacon></x-beacon><x-lantern></x-lantern>")
    [.ofFunction 21 .onlyTheme (.ofString "p{top:0}")]

def lights : Catalog := ⟨[⟨beacon, none⟩, ⟨lantern, none⟩, ⟨hall, some [0, 1]⟩]⟩

/-- The hall when it has begun. -/
def hallBegun : Occurrence :=
  reader.begin .none none hall "x-hall" ∅ []
    (Progress.register ⟨.empty 0, .empty⟩ lights hall)

end Sample

open Sample in
/-- The lantern has the class of the hall. -/
theorem elementToTag_classes_hall :
    ∃ n p', reader.ParsesUnexpanded ∧
      reader.elementToTag lights Deliveries.none 2 hall ∅ none ⟨.empty 0, .empty⟩ = (.ok n, p') ∧
      n.tags.map (fun t => (t.name, t.attribute? "class")) =
        [("x-hall", none), ("x-beacon", some "lit"), ("x-lantern", some "css-x-hall")] ∧
      ∀ ms, Traces reader .none none (reader.rootSite hall ∅)
          (Progress.register ⟨.empty 0, .empty⟩ lights hall) [n] p' ms →
        ∀ m ∈ ms, m.own = true → m.PassesClasses p'.session.tagMap := by
  have hparse : reader.ParsesUnexpanded := Renderer.parsesUnexpanded_of_parse rfl
  have hok : (match (reader.elementToTag lights Deliveries.none 2 hall ∅ none
        ⟨.empty 0, .empty⟩).1 with
      | .ok n => n.tags.map fun t => (t.name, t.attribute? "class")
      | .error _ => []) =
        [("x-hall", none), ("x-beacon", some "lit"), ("x-lantern", some "css-x-hall")] := by
    decide +kernel
  rcases hrun : reader.elementToTag lights Deliveries.none 2 hall ∅ none ⟨.empty 0, .empty⟩
    with ⟨stop | n, p'⟩ <;> rw [hrun] at hok
  · cases hok
  · exact ⟨n, p', hparse, rfl, hok, fun ms hms =>
      ((Renderer.elementToTag_classes hparse lights .none 2 hall ∅ none _ hrun).2 ms hms).2⟩

open Sample in
/-- The beacon, an own element of the hall too, has only the class that it sets itself. -/
theorem elementToTag_classes_beacon :
    (match hallBegun.parts.1 with
      | .ok (some own, scoping) => some (scoping.classes,
          (Node.ownTagsForest hallBegun.before.tagMap.contains own).map fun t =>
            (t.name, hallBegun.before.tagMap.contains t.name))
      | _ => none) = some (["css-x-hall"], [("x-beacon", true), ("x-lantern", true)]) ∧
    (match (reader.elementToTag lights Deliveries.none 2 hall ∅ none ⟨.empty 0, .empty⟩).1 with
      | .ok n => n.tags.map fun t => (t.name, t.expanded, t.attribute? "class")
      | .error _ => []) =
        [("x-hall", true, none), ("x-beacon", true, some "lit"),
          ("x-lantern", true, some "css-x-hall")] := by
  decide +kernel

end CustomElements
