import CustomElements.Proofs.Expansion.Relation
import CustomElements.Proofs.Markup.Walking

/-!
# The walks of a renderer

A renderer goes through markup four times for each component: it puts the scoping classes on it,
notes its placeholders, fills them, and expands the components nested in it. Each of these is a
recursion of its own here, written down as what it does to a node and to a forest.

They are walks. A pair of such functions is a walk if at every node it does what a visitor says
(`Node.IsWalk`), and then it does the same as `Node.walkForest` with that visitor, once the limit on
the depth is out of reach (`Node.IsWalk.walkForest_eq`). So what is known of walks is known of the
four: which nodes they look at, in which order, and what they leave alone (`Node.walkForest_calls`).
-/

namespace CustomElements

/-! ## Functions that obey a visitor -/

section IsWalk

variable {σ ε : Type} {visit : Node → ExceptT ε (StateM σ) Visit}
  {onNode : Node → ExceptT ε (StateM σ) Node}
  {onForest : List Node → ExceptT ε (StateM σ) (List Node)} {depth : Nat}

/--
What is done to a node, and to nodes side by side, is what the visitor says: a node that it keeps is
put in the place, and one that it gives up comes with what is made of the children.
-/
structure Node.IsWalk (visit : Node → ExceptT ε (StateM σ) Visit)
    (onNode : Node → ExceptT ε (StateM σ) Node)
    (onForest : List Node → ExceptT ε (StateM σ) (List Node)) : Prop where
  keeps : ∀ n s v, ((visit n).run s).1 = .ok v → v.Keeps n
  node : ∀ n s, (onNode n).run s = match (visit n).run s with
    | (.error e, t) => (.error e, t)
    | (.ok (.keep m), t) => (.ok m, t)
    | (.ok (.descend m), t) =>
      (((onForest n.childNodes).run t).1.map m.withChildNodes, ((onForest n.childNodes).run t).2)
  nil : ∀ s, (onForest []).run s = (.ok [], s)
  cons : ∀ n rest s, (onForest (n :: rest)).run s = match (onNode n).run s with
    | (.error e, t) => (.error e, t)
    | (.ok m, t) => (((onForest rest).run t).1.map (m :: ·), ((onForest rest).run t).2)

namespace Node.IsWalk

theorem walk_of_children (h : IsWalk visit onNode onForest) {n : Node} (hdepth : n.height ≤ depth)
    (hinside : walkForest visit (depth - 1) n.childNodes = onForest n.childNodes) :
    n.walk visit depth = onNode n := by
  funext s
  have hrun := run_walk_of_keeps hdepth s (h.keeps n s)
  rw [hinside] at hrun
  exact hrun.trans (h.node n s).symm

mutual

theorem walk_eq (h : IsWalk visit onNode onForest) : (n : Node) → (depth : Nat) → n.height ≤ depth →
    n.walk visit depth = onNode n
  | .element _ children, depth, hdepth =>
      h.walk_of_children hdepth
        (h.walkForest_eq children (depth - 1) (heightForest_childNodes hdepth).1)
  | .text _, _, hdepth => h.walk_of_children hdepth (funext fun s => (h.nil s).symm)
  | .style _ _, _, hdepth => h.walk_of_children hdepth (funext fun s => (h.nil s).symm)
  | .styleText _, _, hdepth => h.walk_of_children hdepth (funext fun s => (h.nil s).symm)

/-- **Functions that do what a visitor says do the same as the walk with that visitor.** -/
theorem walkForest_eq (h : IsWalk visit onNode onForest) : (nodes : List Node) → (depth : Nat) →
    heightForest nodes ≤ depth → walkForest visit depth nodes = onForest nodes
  | [], _, _ => funext fun s => (h.nil s).symm
  | n :: rest, depth, hdepth => by
      rw [heightForest] at hdepth
      have hn := h.walk_eq n depth (Nat.le_trans (Nat.le_max_left _ _) hdepth)
      have hrest := h.walkForest_eq rest depth (Nat.le_trans (Nat.le_max_right _ _) hdepth)
      funext s
      have hrun := run_walkForest_cons visit depth n rest s
      rw [hn, hrest] at hrun
      exact hrun.trans (h.cons n rest s).symm

end

end Node.IsWalk

end IsWalk

/-! ## Scoping classes -/

section Scoping

variable (classes : List String) (isCustom : String → Bool)

/-- Own elements get the classes. Nested components and finished elements are left as they are. -/
def Node.scoping : Node → Visit
  | .element tag children =>
    if tag.expanded then .keep (.element tag children)
    else if isCustom tag.name then .keep (.element (tag.withClasses classes) children)
    else .descend (.element (tag.withClasses classes) children)
  | leaf => .keep leaf

theorem Node.isWalk_addClasses (σ ε : Type) :
    IsWalk (σ := σ) (ε := ε) (fun n => pure (n.scoping classes isCustom))
      (fun n => pure (n.addClasses classes isCustom))
      (fun nodes => pure (addClassesForest classes isCustom nodes)) where
  keeps := by
    intro n s v hv
    obtain rfl : n.scoping classes isCustom = v := Except.ok.inj hv
    cases n with
    | element tag children =>
        rw [scoping]
        split_ifs
        · trivial
        · trivial
        · rfl
    | text _ | style _ _ | styleText _ => trivial
  node := by
    intro n s
    rw [run_pure, run_pure]
    cases n with
    | element tag children =>
        rw [scoping, addClasses]
        split_ifs <;> rfl
    | text _ | style _ _ | styleText _ => rfl
  nil := fun _ => rfl
  cons := fun _ _ _ => rfl

/-- **To scope markup is a walk**, unless there are no classes to add. -/
theorem scopeMarkup_eq_walkForest {σ ε : Type} {nodes : List Node} {depth : Nat}
    (hdepth : Node.heightForest nodes ≤ depth) :
    (pure (scopeMarkup nodes classes isCustom) : ExceptT ε (StateM σ) (List Node)) =
      if classes.isEmpty then pure nodes
      else Node.walkForest (fun n => pure (n.scoping classes isCustom)) depth nodes := by
  rw [scopeMarkup]
  split_ifs
  · rfl
  · exact ((Node.isWalk_addClasses classes isCustom σ ε).walkForest_eq nodes depth hdepth).symm

end Scoping

/-! ## Placeholders -/

namespace Receivers

variable {ε : Type}

/-- Takes note of a placeholder. What is inside of it, or of a finished element, is passed over. -/
def visit : Node → ExceptT ε (StateM Receivers) Visit
  | .element tag children => do
    if tag.isReceiver then
      modify fun r => r.add tag.receiverName?
      return .keep (.element tag children)
    else if tag.expanded then return .keep (.element tag children)
    else return .descend (.element tag children)
  | leaf => return .descend leaf

theorem isWalk_addForest : Node.IsWalk (ε := ε) visit
    (fun n => modifyGet fun r => (n, r.addNode n))
    (fun nodes => modifyGet fun r => (nodes, r.addForest nodes)) where
  keeps := by
    intro n r v hv
    cases n with
    | element tag children =>
        rw [visit] at hv
        split_ifs at hv <;> cases hv
        · trivial
        · trivial
        · rfl
    | text _ | style _ _ | styleText _ =>
        cases hv
        rfl
  node := by
    intro n r
    cases n with
    | element tag children =>
        rw [run_modifyGet, visit, addNode]
        split_ifs <;> rfl
    | text _ | style _ _ | styleText _ => rfl
  nil := fun _ => rfl
  cons := fun _ _ _ => rfl

/-- **To find the placeholders is a walk** that begins with none and changes nothing. -/
theorem walkForest_find {nodes : List Node} {depth : Nat}
    (hdepth : Node.heightForest nodes ≤ depth) :
    (Node.walkForest (visit (ε := ε)) depth nodes).run none = (.ok nodes, find nodes) := by
  rw [isWalk_addForest.walkForest_eq nodes depth hdepth]
  rfl

end Receivers

namespace Waiting

variable {ε : Type}

/-- Fills a placeholder, if there is content for it that is not empty. -/
def visit : Node → ExceptT ε (StateM Waiting) Visit
  | .element tag children => do
    if tag.isReceiver then
      match ← modifyGet fun w => w.take tag.receiverName? with
      | some (c :: cs) => return .keep (.element tag (c :: cs))
      | _ => return .keep (.element tag children)
    else if tag.expanded then return .keep (.element tag children)
    else return .descend (.element tag children)
  | leaf => return .descend leaf

theorem isWalk_fillForest : Node.IsWalk (ε := ε) visit
    (fun n => modifyGet fun w => w.fillNode n)
    (fun nodes => modifyGet fun w => w.fillForest nodes) where
  keeps := by
    intro n w v hv
    cases n with
    | element tag children =>
        rw [visit] at hv
        split_ifs at hv
        · rw [run_bind, run_modifyGet] at hv
          dsimp only at hv
          split at hv <;> cases hv <;> trivial
        · cases hv
          trivial
        · cases hv
          rfl
    | text _ | style _ _ | styleText _ =>
        cases hv
        rfl
  node := by
    intro n w
    cases n with
    | element tag children =>
        rw [run_modifyGet, visit, fillNode]
        split_ifs
        · rw [run_bind, run_modifyGet]
          rcases w.take tag.receiverName? with ⟨- | - | ⟨c, cs⟩, w'⟩ <;> rfl
        · rfl
        · rfl
    | text _ | style _ _ | styleText _ => rfl
  nil := fun _ => rfl
  cons := fun _ _ _ => rfl

/-- **To fill the placeholders is a walk** that knows what content is still waiting. -/
theorem walkForest_fill {nodes : List Node} {depth : Nat}
    (hdepth : Node.heightForest nodes ≤ depth) (w : Waiting) :
    (Node.walkForest (visit (ε := ε)) depth nodes).run w =
      (.ok (w.fillForest nodes).1, (w.fillForest nodes).2) := by
  rw [isWalk_fillForest.walkForest_eq nodes depth hdepth]
  rfl

end Waiting

/-! ## Nested components -/

namespace Expander

/-- Expands a custom element, its children first. What is finished is passed over. -/
def visit (expand : Expander) : Node → Expansion Visit
  | .element tag children => do
    if tag.expanded then return .keep (.element tag children)
    match (← get).session.lookup tag.name with
    | none => return .descend (.element tag children)
    | some nested => do
      let content ← expandForest expand children
      return .keep (← expand nested tag.name (tag.attributes.map .string) content)
  | leaf => return .keep leaf

theorem run_visit_element (expand : Expander) {tag : Tag} (h : tag.expanded = false)
    (children : List Node) (p : Progress) :
    (expand.visit (.element tag children)).run p = match p.session.lookup tag.name with
      | none => (.ok (.descend (.element tag children)), p)
      | some nested => match (expandForest expand children).run p with
        | (.error stop, p') => (.error stop, p')
        | (.ok content, p') =>
          let expanded := (expand nested tag.name (tag.attributes.map .string) content).run p'
          (expanded.1.map .keep, expanded.2) := by
  rw [visit, if_neg (by simp [h]), run_bind, run_get]
  dsimp only
  rcases p.session.lookup tag.name with - | nested
  · rfl
  · dsimp only
    rw [run_bind]
    rcases (expandForest expand children).run p with ⟨stop | content, p'⟩
    · rfl
    · dsimp only
      rw [run_bind]
      rcases (expand nested tag.name _ content).run p' with ⟨stop | n, q⟩ <;> rfl

theorem isWalk_expandForest (expand : Expander) :
    Node.IsWalk expand.visit (expandNode expand) (expandForest expand) where
  keeps := by
    intro n p v hv
    rcases n with ⟨tag, children⟩ | _ | _ | _
    case element =>
      rcases hexpanded : tag.expanded with - | -
      · rw [run_visit_element expand hexpanded] at hv
        split at hv
        · cases hv
          rfl
        · split at hv
          · cases hv
          · -- what is expanded may have other children, but it is kept
            simp only [Except.map] at hv
            split at hv <;> cases hv
            trivial
      · rw [visit, if_pos hexpanded] at hv
        cases hv
        trivial
    all_goals
      cases hv
      trivial
  node := by
    intro n p
    rcases n with ⟨tag, children⟩ | _ | _ | _
    case element =>
      rcases hexpanded : tag.expanded with - | -
      · rw [run_expandNode_element expand hexpanded, run_visit_element expand hexpanded]
        -- the children are expanded in both cases, by the walk or as content
        rcases p.session.lookup tag.name with - | nested
        · dsimp only [Node.childNodes]
          rcases (expandForest expand children).run p with ⟨stop | content, p'⟩ <;> rfl
        · rcases (expandForest expand children).run p with ⟨stop | content, p'⟩
          · rfl
          · dsimp only
            rcases (expand nested tag.name _ content).run p' with ⟨stop | n, q⟩ <;> rfl
      · rw [expandNode, visit, if_pos hexpanded, if_pos hexpanded]
        rfl
    all_goals rfl
  nil := fun _ => rfl
  cons := by
    intro n rest p
    rw [expandForest, run_bind]
    rcases (expandNode expand n).run p with ⟨stop | m, p₁⟩
    · rfl
    · dsimp only
      rw [run_bind]
      rcases (expandForest expand rest).run p₁ with ⟨stop | ms, p₂⟩ <;> rfl

/-- **To expand what is nested in markup is a walk.** -/
theorem walkForest_visit (expand : Expander) {nodes : List Node} {depth : Nat}
    (hdepth : Node.heightForest nodes ≤ depth) :
    Node.walkForest expand.visit depth nodes = expandForest expand nodes :=
  expand.isWalk_expandForest.walkForest_eq nodes depth hdepth

end Expander

end CustomElements
