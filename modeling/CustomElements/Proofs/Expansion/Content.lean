import CustomElements.Proofs.Expansion.Completeness
import CustomElements.Proofs.Markup.Frame

/-!
# Content is left alone

A component does the same whatever its caller's content is, as long as the pieces ask for the same
placeholders and nothing in them is left to expand: there is one frame that is its host, with the
pieces in the holes (`Renderer.expand_uniform`).

The proof goes by the room for nested components. Content goes into the markup of the component
first, which is a matter of distribution. Then the markup is expanded with the content in it. The
walk goes through the content again, but there is nothing to expand in it
(`run_expandForest_finished`). Where it comes to a nested component, it has made frames of that
component's content, and nothing is left to expand in these either (`Expands.finished`). So they are
pieces of content themselves, and the nested component makes one frame of its own for all of them,
into which they go.
-/

namespace CustomElements

/-! ## Forests in which nothing is left to expand -/

mutual

/-- A finished tree is expanded to itself, and nothing else happens. -/
theorem run_expandNode_finished (expand : Expander) {p : Progress} :
    (n : Node) → n.Finished p.session.tagMap → (expandNode expand n).run p = (.ok n, p)
  | .text _, _ => rfl
  | .style _ _, _ => rfl
  | .styleText _, _ => rfl
  | .element tag children, h => by
      rcases hexpanded : tag.expanded with - | -
      · rw [Node.finished_element hexpanded] at h
        have hunknown : p.session.lookup tag.name = none := by
          have hcontains := h.1
          rwa [Fields.contains, Option.isSome_eq_false_iff, Option.isNone_iff_eq_none] at hcontains
        rw [run_expandNode_element expand hexpanded, run_expandForest_finished expand children h.2,
          hunknown]
      · rw [expandNode, hexpanded, if_pos rfl, run_pure]

theorem run_expandForest_finished (expand : Expander) {p : Progress} :
    (nodes : List Node) → (∀ n ∈ nodes, n.Finished p.session.tagMap) →
      (expandForest expand nodes).run p = (.ok nodes, p)
  | [], _ => rfl
  | n :: rest, h => by
      rw [List.forall_mem_cons] at h
      simp only [expandForest, run_bind, run_expandNode_finished expand n h.1,
        run_expandForest_finished expand rest h.2, run_pure]

end

variable {r : Renderer} {d : Deliveries} {theme : Option Theme}

theorem Expands.finished {known : TagMap} {task : Task} {p p' : Progress}
    {ns : List Node} {os : List Occurrence} (h : Expands r d theme task p (.ok ns) p' os)
    (hknown : p.session.tagMap = known) : ∀ n ∈ ns, n.Finished known := by
  induction h using Expands.induction_ok with
  | @kept n _ settled =>
      rw [List.forall_mem_singleton]
      rcases n with ⟨tag, children⟩ | _ | _ | _
      · exact Node.finished_of_expanded (settled tag children rfl)
      all_goals exact fun t ht => absurd ht (by simp [Node.openTags])
  | plain unexpanded unknown _ ih =>
      rw [List.forall_mem_singleton, Node.finished_element unexpanded]
      rw [Session.lookup, hknown] at unknown
      exact ⟨by simp [Fields.contains, unknown], ih hknown⟩
  | custom _ _ inside _ _ ih' => exact ih' (inside.grows.tagMap.trans hknown)
  | nil => simp
  | cons first _ ih ih' =>
      exact List.forall_mem_append.mpr ⟨ih hknown, ih' (first.grows.tagMap.trans hknown)⟩
  | passed _ _ | filled _ _ _ _ =>
      exact List.forall_mem_singleton.mpr (Node.finished_of_expanded rfl)

/-- Expanding a forest changes no known tag name, and what it makes leaves nothing to expand. -/
theorem Faithful.run_expandForest {expand : Expander} (h : Faithful r d theme expand)
    {nodes : List Node} {p p' : Progress} {result : Except Stop (List Node)}
    (hrun : (expandForest expand nodes).run p = (result, p')) :
    p'.session.tagMap = p.session.tagMap ∧
      ∀ ns, result = .ok ns → ∀ n ∈ ns, n.Finished p'.session.tagMap := by
  obtain ⟨os, hx⟩ := follows_expandForest h nodes p
  rw [hrun] at hx
  have hsame := hx.grows.tagMap
  refine ⟨hsame, ?_⟩
  rintro ns rfl
  exact hx.finished hsame.symm

theorem Faithful.tagMap_expandNode {expand : Expander} (h : Faithful r d theme expand) {n : Node}
    {p p' : Progress} {result : Except Stop Node}
    (hrun : (expandNode expand n).run p = (result, p')) :
    p'.session.tagMap = p.session.tagMap := by
  obtain ⟨os, hx⟩ := follows_expandNode h n p
  rw [run_map, hrun] at hx
  exact hx.grows.tagMap

/-! ## One outcome for all content -/

/-- Pieces that ask for the given placeholders, and in which nothing is left to expand. -/
structure Fits {ι : Type} (known : TagMap) (targets : ι → Option String) (content : ι → Node) :
    Prop where
  slotTarget? : ∀ i, (content i).slotTarget? = targets i
  finished : ∀ i, (content i).Finished known

/--
Nested components are expanded in one way for all pieces of content that ask for the same
placeholders: either none of them succeeds, or one host with holes is the result for all of them.
-/
def Expander.Uniform (expand : Expander) : Prop :=
  ∀ (definition : Definition) (tagName : String) (attributes : Props) (p : Progress) (n : Nat)
    (targets : Fin n → Option String),
    ∃ (result : Except Stop (Frame (Fin n))) (p' : Progress),
      (∀ host, result = .ok host → host.holes.Nodup) ∧
      ∀ content, Fits p.session.tagMap targets content →
        (expand definition tagName attributes (List.ofFn content)).run p =
          (result.map (Frame.fill content), p')

section Uniform

variable {expand : Expander} {ι : Type}

/-- A nested component takes frames in which nothing is left to expand as its pieces of content. -/
theorem Expander.Uniform.exists_run (hu : expand.Uniform) (targets : ι → Option String)
    (gs : List (Frame ι)) (nested : Definition) (tagName : String) (attributes : Props)
    (p : Progress) :
    ∃ (result : Except Stop (Frame ι)) (p' : Progress),
      (∀ g, result = .ok g → g.holes.Subperm (Frame.holesForest gs)) ∧
      ∀ content, (∀ i, (content i).slotTarget? = targets i) →
        (∀ n ∈ Frame.fillForest content gs, n.Finished p.session.tagMap) →
        (expand nested tagName attributes (Frame.fillForest content gs)).run p =
          (result.map (Frame.fill content), p') := by
  -- which placeholder a frame asks for is the same whatever goes into its holes
  obtain ⟨host, p', hnodup, hrun⟩ := hu nested tagName attributes p gs.length
    fun j => (gs[j]).slotTarget? targets
  refine ⟨host.map (Frame.subst fun j => gs[j]), p', fun g hg => ?_,
    fun content htargets hfinished => ?_⟩
  · rcases host with stop | host <;> cases hg
    exact Frame.subperm_holes_subst gs (hnodup host rfl)
  · rw [Frame.fillForest_eq_map] at hfinished ⊢
    have hpieces : Fits p.session.tagMap (fun j => (gs[j]).slotTarget? targets)
        (fun j : Fin gs.length => (gs[j]).fill content) :=
      ⟨fun j => Frame.slotTarget?_fill htargets _,
        fun j => hfinished _ (List.mem_map_of_mem (List.getElem_mem j.2))⟩
    have hframes : List.ofFn (fun j : Fin gs.length => gs[j]) = gs := List.ofFn_getElem
    have hcontent : List.ofFn (fun j : Fin gs.length => (gs[j]).fill content) =
        gs.map (Frame.fill content) := by
      conv_rhs => rw [← hframes, List.map_ofFn]
      rfl
    rw [← hcontent, hrun _ hpieces]
    rcases host with stop | host
    · rfl
    · simp only [Except.map, Frame.fill_subst]

mutual

theorem exists_run_expandNode (hu : expand.Uniform) (hf : Faithful r d theme expand)
    (targets : ι → Option String) : (f : Frame ι) → (p : Progress) →
      ∃ (result : Except Stop (Frame ι)) (p' : Progress),
        (∀ g, result = .ok g → g.holes.Subperm f.holes) ∧
        ∀ content, Fits p.session.tagMap targets content →
          (expandNode expand (f.fill content)).run p = (result.map (Frame.fill content), p')
  | .hole i, p => by
      refine ⟨.ok (.hole i), p, fun g hg => ?_, fun content hfits => ?_⟩
      · cases hg
        exact List.Subperm.refl _
      · exact run_expandNode_finished expand (content i) (hfits.finished i)
  | .given n, p => by
      rcases hrun : (expandNode expand n).run p with ⟨stop | m, p'⟩
      · exact ⟨.error stop, p', by simp, fun content _ => hrun⟩
      · refine ⟨.ok (.given m), p', fun g hg => ?_, fun content _ => hrun⟩
        cases hg
        exact List.Subperm.refl _
  | .element tag children, p => by
      rcases hexpanded : tag.expanded with - | -
      · -- the children come first; if the name is known, what they became is handed on as content
        obtain ⟨inside, p₁, hholes, hrun⟩ := exists_run_expandForest hu hf targets children p
        rcases inside with stop | gs
        · refine ⟨.error stop, p₁, by simp, fun content hfits => ?_⟩
          rw [Frame.fill, run_expandNode_element expand hexpanded, hrun content hfits]
          rfl
        · rcases hlookup : p.session.lookup tag.name with - | nested
          · refine ⟨.ok (.element tag gs), p₁, fun g hg => ?_, fun content hfits => ?_⟩
            · cases hg
              exact hholes gs rfl
            · rw [Frame.fill, run_expandNode_element expand hexpanded, hrun content hfits, hlookup]
              rfl
          · obtain ⟨host, p₂, hhost, hrun'⟩ := hu.exists_run targets gs nested tag.name
              (tag.attributes.map .string) p₁
            refine ⟨host, p₂, fun g hg => (hhost g hg).trans (hholes gs rfl),
              fun content hfits => ?_⟩
            have hinside := hrun content hfits
            rw [Frame.fill, run_expandNode_element expand hexpanded, hinside, hlookup]
            exact hrun' content hfits.slotTarget? ((hf.run_expandForest hinside).2 _ rfl)
      · refine ⟨.ok (.element tag children), p, fun g hg => ?_, fun content _ => ?_⟩
        · cases hg
          exact List.Subperm.refl _
        · rw [Frame.fill, expandNode, hexpanded, if_pos rfl, run_pure]
          rfl

theorem exists_run_expandForest (hu : expand.Uniform) (hf : Faithful r d theme expand)
    (targets : ι → Option String) : (fs : List (Frame ι)) → (p : Progress) →
      ∃ (result : Except Stop (List (Frame ι))) (p' : Progress),
        (∀ gs, result = .ok gs → (Frame.holesForest gs).Subperm (Frame.holesForest fs)) ∧
        ∀ content, Fits p.session.tagMap targets content →
          (expandForest expand (Frame.fillForest content fs)).run p =
            (result.map (Frame.fillForest content), p')
  | [], p => ⟨.ok [], p, fun gs hgs => by cases hgs; exact List.Subperm.refl _, fun _ _ => rfl⟩
  | f :: rest, p => by
      obtain ⟨first, p₁, hfirst, hrun⟩ := exists_run_expandNode hu hf targets f p
      rcases first with stop | g
      · refine ⟨.error stop, p₁, by simp, fun content hfits => ?_⟩
        rw [Frame.fillForest, expandForest, run_bind, hrun content hfits]
        rfl
      · obtain ⟨onward, p₂, honward, hrun'⟩ := exists_run_expandForest hu hf targets rest p₁
        refine ⟨onward.map (g :: ·), p₂, fun gs hgs => ?_, fun content hfits => ?_⟩
        · rcases onward with stop | gs' <;> cases hgs
          exact (hfirst g rfl).append (honward gs' rfl)
        · have hnode := hrun content hfits
          -- expanding the first node made no new name known, so the pieces still fit
          have hfits' : Fits p₁.session.tagMap targets content := by
            rw [hf.tagMap_expandNode hnode]
            exact hfits
          rw [Frame.fillForest, expandForest, run_bind, hnode]
          simp only [Except.map, run_bind, hrun' content hfits']
          rcases onward with stop | gs' <;> rfl

end

end Uniform

/-! ## Components -/

/-- The host of an instance as a tree with holes. -/
def Frame.host {ι : Type} (inst : Instance) (children : List (Frame ι)) : Frame ι :=
  .element ⟨inst.tagName, inst.hostAttributes, false, true⟩ children

theorem Frame.fill_host {ι : Type} (content : ι → Node) (inst : Instance) (styles : List Node)
    (children : List (Frame ι)) :
    (Frame.host inst (styles.map .given ++ children)).fill content =
      Renderer.host inst (styles ++ Frame.fillForest content children) := by
  have hstyles : (styles.map Frame.given).map (Frame.fill content) = styles := by
    rw [List.map_map]
    exact List.map_id styles
  rw [Frame.host, Frame.fill, Frame.fillForest_eq_map, List.map_append, hstyles,
    ← Frame.fillForest_eq_map]
  rfl

theorem Frame.holes_host {ι : Type} (inst : Instance) (styles : List Node)
    (children : List (Frame ι)) :
    (Frame.host inst (styles.map .given ++ children)).holes = Frame.holesForest children := by
  have hstyles : (styles.map (Frame.given (ι := ι))).flatMap Frame.holes = [] := by
    rw [List.flatMap_map]
    exact List.flatMap_eq_nil_iff.mpr fun _ _ => rfl
  rw [Frame.host, Frame.holes, Frame.holesForest_eq_flatMap, List.flatMap_append, hstyles,
    List.nil_append, ← Frame.holesForest_eq_flatMap]

/-- The distributed markup of an occurrence, with holes for `n` pieces of content. -/
theorem exists_nodes_distribute (o : Occurrence) (own : List Node) (scoping : StyleScoping)
    (tags : TagMap) {n : Nat} (targets : Fin n → Option String) :
    ∃ fs : List (Frame (Fin n)), (Frame.holesForest fs).Nodup ∧
      ∀ content, (∀ i, (content i).slotTarget? = targets i) →
        ({ o with content := List.ofFn content }.distribute own scoping tags).nodes =
          Frame.fillForest content fs := by
  generalize hmarkup : scopeMarkup own scoping.classes tags.contains = markup
  refine ⟨Node.outlineForest ((Receivers.find markup).assigned targets (List.finRange n)) [] markup,
    Node.nodup_holesForest_outlineForest (Receivers.nodup_assigned (List.nodup_finRange n))
      (fun _ _ => Receivers.disjoint_assigned) [] markup, fun content htargets => ?_⟩
  rw [Occurrence.distribute, hmarkup, List.ofFn_eq_map]
  exact Distribution.nodes_resolve markup htargets (List.finRange n)

/-- Its parts are made before a component looks at its content. -/
theorem run_expand_content (depth : Nat) (definition : Definition) (tagName : String)
    (attributes : Props) (p : Progress) (content : List Node) {o : Occurrence}
    (ho : o = r.begin d theme definition tagName attributes [] p) :
    (r.expand d theme (depth + 1) definition tagName attributes content).run p =
      match o.parts with
      | (.error stop, w) => (.error stop, w.progress.endInstance o.start.inst.id)
      | (.ok (none, scoping), w) =>
        (.ok (Renderer.host w.inst (o.written scoping ++ content)),
          w.progress.endInstance o.start.inst.id)
      | (.ok (some own, scoping), w) =>
        let body := (expandForest (r.expand d theme depth)
          ({ o with content }.distribute own scoping w.progress.session.tagMap).nodes).run
            w.progress
        (body.1.map fun body => Renderer.host w.inst (o.written scoping ++ body),
          body.2.endInstance o.start.inst.id) := by
  have hbegin : r.begin d theme definition tagName attributes content p = { o with content } := by
    rw [ho]
    rfl
  have hparts : ({ o with content } : Occurrence).parts = o.parts := rfl
  rw [run_expand_succ, hbegin]
  dsimp only
  rw [run_expandInstance (r.expand d theme depth) { o with content }, hparts]
  rcases o.parts with ⟨stop | ⟨own | own, scoping⟩, w⟩ <;> rfl

/--
With a uniform way of expanding what is nested, a component is expanded in one way for all content.
The host holds the stylesheets, and without own markup it holds the pieces next.
-/
theorem exists_run_expand_succ {depth : Nat} (hu : (r.expand d theme depth).Uniform)
    (definition : Definition) (tagName : String) (attributes : Props) (p : Progress) {n : Nat}
    (targets : Fin n → Option String) {o : Occurrence}
    (ho : o = r.begin d theme definition tagName attributes [] p) :
    ∃ (result : Except Stop (Frame (Fin n))) (p' : Progress),
      (∀ host, result = .ok host → host.holes.Nodup ∧
        ∃ own scoping w children, o.parts = (.ok (own, scoping), w) ∧
          host = .host w.inst ((o.written scoping).map .given ++ children) ∧
          (own = none → children = (List.finRange n).map .hole)) ∧
      ∀ content, Fits p.session.tagMap targets content →
        (r.expand d theme (depth + 1) definition tagName attributes (List.ofFn content)).run p =
          (result.map (Frame.fill content), p') := by
  have hrun := fun content : Fin n → Node => run_expand_content depth definition tagName attributes
    p (List.ofFn content) ho
  have hsame := Occurrence.tagMap_parts ho
  rcases hparts : o.parts with ⟨stop | ⟨own | own, scoping⟩, w⟩ <;>
    simp only [hparts] at hrun hsame
  · exact ⟨.error stop, _, by simp, fun content _ => hrun content⟩
  · -- without own markup nothing is distributed or expanded
    refine ⟨.ok (.host w.inst ((o.written scoping).map .given ++ (List.finRange n).map .hole)),
      w.progress.endInstance o.start.inst.id, fun host hhost => ?_, fun content _ => ?_⟩
    · cases hhost
      refine ⟨?_, none, scoping, w, _, rfl, rfl, fun _ => rfl⟩
      rw [Frame.holes_host, Frame.holesForest_map_hole]
      exact List.nodup_finRange n
    · rw [hrun content, Except.map, Frame.fill_host, Frame.fillForest_map_hole, List.ofFn_eq_map]
  · -- the markup with holes is expanded with the content in it
    obtain ⟨fs, hnodup, hfill⟩ :=
      exists_nodes_distribute o own scoping w.progress.session.tagMap targets
    obtain ⟨body, p', hholes, hbody⟩ :=
      exists_run_expandForest hu (follows_expand depth) targets fs w.progress
    refine ⟨body.map fun gs => .host w.inst ((o.written scoping).map .given ++ gs),
      p'.endInstance o.start.inst.id, fun host hhost => ?_, fun content hfits => ?_⟩
    · rcases body with stop | gs <;> cases hhost
      refine ⟨?_, some own, scoping, w, gs, rfl, rfl, by simp⟩
      obtain ⟨l, hperm, hsub⟩ := hholes gs rfl
      rw [Frame.holes_host]
      exact hperm.nodup_iff.mp (hnodup.sublist hsub)
    · rw [← hsame] at hfits
      rw [hrun content, hfill content hfits.slotTarget?, hbody content hfits]
      rcases body with stop | gs
      · rfl
      · simp only [Except.map, Frame.fill_host]

/-- However much room there is, a component is expanded in one way for all content. -/
theorem uniform_expand (depth : Nat) : (r.expand d theme depth).Uniform := by
  induction depth with
  | zero => exact fun _ _ _ p _ _ => ⟨.error .outOfRoom, p, by simp, fun _ _ => rfl⟩
  | succ depth ih =>
      intro definition tagName attributes p n targets
      obtain ⟨result, p', hhost, hrun⟩ :=
        exists_run_expand_succ ih definition tagName attributes p targets rfl
      exact ⟨result, p', fun host h => (hhost host h).1, hrun⟩

/-! ## Components without own markup -/

/-- The template for the markup has no result, or one that is not written, or there is none. -/
def Definition.Bare (definition : Definition) : Prop :=
  ∀ t, definition.html = some t → t.run? = none ∨ t.attach = .detached

theorem Definition.Bare.parts {o : Occurrence} (h : o.definition.Bare) {own : Option (List Node)}
    {scoping : StyleScoping} {w : Work} (hparts : o.parts = (.ok (own, scoping), w)) :
    own = none := by
  obtain ⟨w₁, hmarkup, -⟩ := Occurrence.parts_stages hparts
  obtain ⟨-, rfl, -⟩ | ⟨t, text, ht, htext, ⟨hattach, rfl⟩ | ⟨-, rfl⟩⟩ :=
    Renderer.ownMarkup_cases hmarkup
  · rfl
  · -- there is a text only if the template is a function, and then it is not attached
    have hrun := InstanceStep.isSome_renderText htext
    rcases h t ht with hnone | hdetached
    · rw [hnone] at hrun
      simpa using hrun
    · rw [hattach] at hdetached
      cases hdetached
  · rfl

namespace Renderer

/--
**Content is left alone.** Whatever pieces a component gets, if they ask for the given placeholders
and nothing in them is left to expand, there is one outcome: an error, or a host with a hole for
each piece that has a place, into which the pieces go as they are, and one final state. The host
holds the stylesheets first, and without own markup it holds all the pieces next, in order.
-/
theorem expand_uniform (r : Renderer) (d : Deliveries) (theme : Option Theme) (depth : Nat)
    (definition : Definition) (tagName : String) (attributes : Props) (p : Progress) {n : Nat}
    (targets : Fin n → Option String) :
    let o := r.begin d theme definition tagName attributes [] p
    ∃ (result : Except Stop (Frame (Fin n))) (p' : Progress),
      (∀ host, result = .ok host → host.holes.Nodup ∧
        ∃ own scoping w children, o.parts = (.ok (own, scoping), w) ∧
          host = .host w.inst ((o.written scoping).map .given ++ children) ∧
          (definition.Bare → children = (List.finRange n).map .hole)) ∧
      ∀ content, Fits p.session.tagMap targets content →
        (r.expand d theme depth definition tagName attributes (List.ofFn content)).run p =
          (result.map (Frame.fill content), p') := by
  rcases depth with - | depth
  · exact ⟨.error .outOfRoom, p, by simp, fun _ _ => rfl⟩
  · obtain ⟨result, p', hhost, hrun⟩ :=
      exists_run_expand_succ (uniform_expand depth) definition tagName attributes p targets rfl
    refine ⟨result, p', fun host h => ?_, hrun⟩
    obtain ⟨hnodup, own, scoping, w, children, hparts, hhost, hbare⟩ := hhost host h
    exact ⟨hnodup, own, scoping, w, children, hparts, hhost, fun hb => hbare (hb.parts hparts)⟩

end Renderer

namespace Sample

/-- A session that knows the parcel and what it depends on. -/
def posted : Progress := Progress.register ⟨.empty 0, .empty⟩ mail parcel

/-- A piece for the inside of a parcel, and one that asks for its foot. -/
def goods : Fin 2 → Node
  | 0 => .text "goods"
  | 1 => .element ((Tag.ofName "b").withAttribute "slot" "foot") [.text "enclosed"]

def goodsTargets : Fin 2 → Option String
  | 0 => none
  | 1 => some "foot"

theorem fits_goods : Fits posted.session.tagMap goodsTargets goods := by
  constructor
  · decide
  · rw [Fin.forall_fin_two]
    refine ⟨by simp [Node.Finished, goods, Node.openTags], ?_⟩
    simp [Node.Finished, goods, Node.openTags, Node.openTagsForest]
    decide

end Sample

open Sample in
/-- Whatever they are, one piece goes through the parcel into its bag, and the other behind it. -/
theorem expand_uniform_parcel :
    Fits posted.session.tagMap goodsTargets goods ∧
      ∃ (host : Frame (Fin 2)) (p' : Progress), host.holes.Nodup ∧
        (host.fill goods).toHtml = "<x-parcel><x-bag><slot>goods</slot></x-bag>" ++
          "<slot name=\"foot\"><b slot=\"foot\">enclosed</b></slot></x-parcel>" ∧
        ∀ content, Fits posted.session.tagMap goodsTargets content →
          (reader.expand Deliveries.none none 3 parcel "x-parcel" ∅ (List.ofFn content)).run
            posted = (.ok (host.fill content), p') := by
  obtain ⟨result, p', hhost, hrun⟩ :=
    reader.expand_uniform .none none 3 parcel "x-parcel" ∅ posted goodsTargets
  have hhtml : (((reader.expand Deliveries.none none 3 parcel "x-parcel" ∅ (List.ofFn goods)).run
      posted).1.toOption.map Node.toHtml) =
        some ("<x-parcel><x-bag><slot>goods</slot></x-bag>" ++
          "<slot name=\"foot\"><b slot=\"foot\">enclosed</b></slot></x-parcel>") := by
    decide +kernel
  rw [hrun goods fits_goods] at hhtml
  rcases result with stop | host
  · cases hhtml
  · exact ⟨fits_goods, host, p', (hhost host rfl).1, Option.some.inj hhtml, hrun⟩

end CustomElements
