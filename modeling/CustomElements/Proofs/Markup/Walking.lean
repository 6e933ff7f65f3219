import CustomElements.Markup.Walk
import CustomElements.Proofs.Markup.Places
import CustomElements.Proofs.Steps

/-!
# Which nodes a walk visits

A walk leaves it to its visitor where it goes on, and the visitor may answer differently each time
it is asked. Still, what a walk does can be said without following it: there are replies, one for
each position, such that the visitor is called for the nodes that are *due* under them, in document
order, each one once, and replies just so; and the result is the forest with each of these nodes
replaced by the reply (`Node.walkForest_calls`). A node is due if no element that it is inside was
kept as it was. The visitor's first failure is the last call.

This needs a visitor that leaves the children of a node to the walk: one that changes tags or
replaces leaves, or keeps a node whole. The calls are known from a visitor that records them.
-/

namespace CustomElements

/-! ## Visitors -/

/-- The nodes that a walk visits inside a node. -/
def Node.childNodes : Node → List Node
  | .element _ children => children
  | _ => []

/-- An element with other children. Leaves stay as they are. -/
def Node.withChildNodes (children : List Node) : Node → Node
  | .element tag _ => .element tag children
  | leaf => leaf

/-- A place that is given up to the walk still has the children of the node. -/
def Visit.Keeps (n : Node) : Visit → Prop
  | .descend m => m.childNodes = n.childNodes
  | .keep _ => True

/-- The walk goes on inside. -/
def Visit.goesOn : Visit → Bool
  | .descend _ => true
  | .keep _ => false

/-- What comes in the place of a node, given the children that were walked. -/
def Visit.rebuild (children : List Node) : Visit → Node
  | .descend m => m.withChildNodes children
  | .keep m => m

section Recording

variable {σ ε : Type}

/-- The nodes that a visitor was called for, each with its reply. -/
abbrev VisitLog (ε : Type) := List (Node × Except ε Visit)

/-- The visitor as one that keeps a record of its calls beside its state. -/
def recorded (visit : Node → ExceptT ε (StateM σ) Visit) (n : Node) :
    ExceptT ε (StateM (σ × VisitLog ε)) Visit :=
  fun s => (((visit n).run s.1).1, ((visit n).run s.1).2, s.2 ++ [(n, ((visit n).run s.1).1)])

end Recording

/-! ## What is due, and what comes of it -/

/-- Of the elements that the place is inside, none below the level `above` is kept as it is. -/
def Place.IsDueBelow (reply : List Nat → Visit) (above : Nat) (x : Place) : Prop :=
  ∀ m < x.position.length, above < m → (reply (x.position.take m)).goesOn = true

instance (reply : List Nat → Visit) (above : Nat) (x : Place) :
    Decidable (x.IsDueBelow reply above) :=
  inferInstanceAs (Decidable (∀ m < x.position.length, above < m → _))

/-- No element that the place is inside is kept as it is. -/
def Place.IsDue (reply : List Nat → Visit) (x : Place) : Prop := x.IsDueBelow reply 0

instance (reply : List Nat → Visit) (x : Place) : Decidable (x.IsDue reply) :=
  inferInstanceAs (Decidable (x.IsDueBelow reply 0))

/-- The call for a place, and the reply to it. -/
def Place.call {ε : Type} (reply : List Nat → Visit) (x : Place) : Node × Except ε Visit :=
  (x.node, .ok (reply x.position))

mutual

/-- The node that stands at `position` replaced by the reply, around what comes of its children. -/
def Node.rebuiltIn (reply : List Nat → Visit) (position : List Nat) : Node → Node
  | .element _ children => (reply position).rebuild (Node.rebuiltFrom reply position 0 children)
  | _ => (reply position).rebuild []

/-- Nodes that stand side by side, the first of them as child number `i`, with each replaced. -/
def Node.rebuiltFrom (reply : List Nat → Visit) (position : List Nat) (i : Nat) :
    List Node → List Node
  | [] => []
  | n :: rest =>
    n.rebuiltIn reply (position ++ [i]) :: Node.rebuiltFrom reply position (i + 1) rest

end

/-- The forest with each node replaced by the reply, down to the nodes that are kept as they are. -/
def Node.rebuilt (reply : List Nat → Visit) (nodes : List Node) : List Node :=
  Node.rebuiltFrom reply [] 0 nodes

/-! ## Positions -/

/-- The tags around the children of a node. -/
def Node.inside (around : List Tag) : Node → List Tag
  | .element tag _ => around ++ [tag]
  | _ => around

theorem Node.placesIn_eq (position : List Nat) (around : List Tag) (n : Node) :
    n.placesIn position around =
      ⟨position, around, n⟩ :: Node.placesFrom position (n.inside around) 0 n.childNodes := by
  cases n <;> rfl

theorem Node.rebuiltIn_eq (reply : List Nat → Visit) (position : List Nat) (n : Node) :
    n.rebuiltIn reply position =
      (reply position).rebuild (Node.rebuiltFrom reply position 0 n.childNodes) := by
  cases n <;> rfl

mutual

/-- What is in a node stands below the node's position. -/
theorem Node.prefix_of_mem_placesIn (position : List Nat) (around : List Tag) :
    (n : Node) → ∀ x ∈ n.placesIn position around, position <+: x.position
  | .text _, x, h => List.mem_singleton.mp h ▸ List.prefix_refl _
  | .style _ _, x, h => List.mem_singleton.mp h ▸ List.prefix_refl _
  | .styleText _, x, h => List.mem_singleton.mp h ▸ List.prefix_refl _
  | .element tag children, x, h => by
      rcases List.mem_cons.mp h with rfl | h
      · exact List.prefix_refl _
      · obtain ⟨j, -, hj⟩ := exists_of_mem_placesFrom position (around ++ [tag]) 0 children x h
        exact (List.prefix_append position [j]).trans hj

/-- What is in nodes that stand side by side is below the position of one of them. -/
theorem Node.exists_of_mem_placesFrom (position : List Nat) (around : List Tag) (i : Nat) :
    (nodes : List Node) → ∀ x ∈ Node.placesFrom position around i nodes,
      ∃ j, i ≤ j ∧ position ++ [j] <+: x.position
  | [], _, h => absurd h List.not_mem_nil
  | n :: rest, x, h => by
      rcases List.mem_append.mp h with h | h
      · exact ⟨i, Nat.le_refl i, prefix_of_mem_placesIn (position ++ [i]) around n x h⟩
      · obtain ⟨j, hij, hj⟩ := exists_of_mem_placesFrom position around (i + 1) rest x h
        exact ⟨j, Nat.le_of_succ_le hij, hj⟩

end

/-- Positions below two siblings differ. -/
theorem sibling_unique {position q : List Nat} {i j : Nat} (hi : position ++ [i] <+: q)
    (hj : position ++ [j] <+: q) : i = j := by
  have := List.prefix_of_prefix_length_le hi hj (by simp)
  simpa using (List.prefix_append_right_inj position).mp this

/-- Where something below a sibling is inside, it is inside the sibling. -/
theorem prefix_sibling {p q position : List Nat} {j : Nat} (hj : p ++ [j] <+: position)
    (hq : q <+: position) (hlt : p.length < q.length) : p ++ [j] <+: q :=
  List.prefix_of_prefix_length_le hj hq (by rwa [List.length_append, List.length_singleton])

mutual

theorem Node.nodup_placesIn (position : List Nat) (around : List Tag) :
    (n : Node) → ((n.placesIn position around).map Place.position).Nodup
  | .text _ => List.pairwise_singleton _ _
  | .style _ _ => List.pairwise_singleton _ _
  | .styleText _ => List.pairwise_singleton _ _
  | .element tag children => by
      refine List.nodup_cons.mpr
        ⟨fun hmem => ?_, nodup_placesFrom position (around ++ [tag]) 0 children⟩
      obtain ⟨x, hx, heq⟩ := List.mem_map.mp hmem
      obtain ⟨j, -, hj⟩ := exists_of_mem_placesFrom position (around ++ [tag]) 0 children x hx
      have hlen := hj.length_le
      rw [heq, List.length_append, List.length_singleton] at hlen
      exact Nat.not_succ_le_self _ hlen

theorem Node.nodup_placesFrom (position : List Nat) (around : List Tag) (i : Nat) :
    (nodes : List Node) → ((Node.placesFrom position around i nodes).map Place.position).Nodup
  | [] => List.nodup_nil
  | n :: rest => by
      rw [Node.placesFrom, List.map_append]
      refine List.nodup_append.mpr ⟨nodup_placesIn (position ++ [i]) around n,
        nodup_placesFrom position around (i + 1) rest, fun p hp q hq heq => ?_⟩
      obtain ⟨x, hx, rfl⟩ := List.mem_map.mp hp
      obtain ⟨y, hy, rfl⟩ := List.mem_map.mp hq
      obtain ⟨j, hij, hj⟩ := exists_of_mem_placesFrom position around (i + 1) rest y hy
      have hi := prefix_of_mem_placesIn (position ++ [i]) around n x hx
      rw [heq] at hi
      exact Nat.ne_of_lt hij (sibling_unique hi hj)

end

/-! ## What is due in a node -/

theorem due_placesIn (reply : List Nat → Visit) (p : List Nat) (i : Nat) (around : List Tag)
    (n : Node) :
    (n.placesIn (p ++ [i]) around).filter (fun x => x.IsDueBelow reply p.length) =
      ⟨p ++ [i], around, n⟩ ::
        if (reply (p ++ [i])).goesOn then
          (Node.placesFrom (p ++ [i]) (n.inside around) 0 n.childNodes).filter
            fun x => x.IsDueBelow reply (p ++ [i]).length
        else [] := by
  have hlen : (p ++ [i]).length = p.length + 1 := by simp
  -- the node is the element at the level below `p` that all the other places are inside
  have hbelow : ∀ x ∈ Node.placesFrom (p ++ [i]) (n.inside around) 0 n.childNodes,
      x.IsDueBelow reply p.length ↔
        (reply (p ++ [i])).goesOn = true ∧ x.IsDueBelow reply (p ++ [i]).length := by
    intro x hx
    obtain ⟨j, -, hj⟩ := Node.exists_of_mem_placesFrom _ _ _ _ x hx
    have htake : x.position.take (p.length + 1) = p ++ [i] := by
      rw [← hlen]
      exact (List.prefix_iff_eq_take.mp ((List.prefix_append _ _).trans hj)).symm
    have hlt : p.length + 1 < x.position.length := by
      have := hj.length_le
      rw [List.length_append, hlen, List.length_singleton] at this
      omega
    constructor
    · intro h
      refine ⟨?_, fun m hm hpm => h m hm (by omega)⟩
      rw [← htake]
      exact h _ hlt (Nat.lt_succ_self _)
    · rintro ⟨hgoes, h⟩ m hm hpm
      rcases Nat.eq_or_lt_of_le hpm with rfl | hpm
      · rw [htake]
        exact hgoes
      · exact h m hm (by omega)
  have hroot : (⟨p ++ [i], around, n⟩ : Place).IsDueBelow reply p.length := by
    intro m hm hpm
    have hm : m < (p ++ [i]).length := hm
    omega
  rw [Node.placesIn_eq, List.filter_cons_of_pos (by simpa using hroot)]
  congr 1
  split_ifs with hgoes
  · refine List.filter_congr fun x hx => ?_
    rw [decide_eq_decide, hbelow x hx]
    exact and_iff_right hgoes
  · refine List.filter_eq_nil_iff.mpr fun x hx => ?_
    rw [decide_eq_true_iff, hbelow x hx]
    exact fun h => hgoes h.1

/-! ## Replies that agree -/

/-- The replies are the same for all places below the level `above`, and what these are inside. -/
def RepliesAgree (reply reply' : List Nat → Visit) (above : Nat) (l : List Place) : Prop :=
  ∀ x ∈ l, ∀ q, q <+: x.position → above < q.length → reply q = reply' q

section RepliesAgree

variable {reply reply' : List Nat → Visit} {above : Nat} {l : List Place}

theorem RepliesAgree.due (h : RepliesAgree reply reply' above l) :
    l.filter (fun x => x.IsDueBelow reply above) = l.filter fun x => x.IsDueBelow reply' above := by
  refine List.filter_congr fun x hx => ?_
  have hsame : ∀ m < x.position.length, above < m →
      reply (x.position.take m) = reply' (x.position.take m) := fun m hm hlt =>
    h x hx _ (List.take_prefix m _) (by rw [List.length_take]; omega)
  rw [decide_eq_decide]
  exact ⟨fun hdue m hm hlt => hsame m hm hlt ▸ hdue m hm hlt,
    fun hdue m hm hlt => (hsame m hm hlt).symm ▸ hdue m hm hlt⟩

mutual

theorem Node.rebuiltIn_congr (position : List Nat) (around : List Tag) : (n : Node) →
    (∀ x ∈ n.placesIn position around, reply x.position = reply' x.position) →
      n.rebuiltIn reply position = n.rebuiltIn reply' position
  | .text _, h => by rw [rebuiltIn_eq, rebuiltIn_eq, h _ (List.mem_singleton_self _)]; rfl
  | .style _ _, h => by rw [rebuiltIn_eq, rebuiltIn_eq, h _ (List.mem_singleton_self _)]; rfl
  | .styleText _, h => by rw [rebuiltIn_eq, rebuiltIn_eq, h _ (List.mem_singleton_self _)]; rfl
  | .element tag children, h => by
      rw [rebuiltIn, rebuiltIn, h _ List.mem_cons_self,
        rebuiltFrom_congr _ _ 0 children fun x hx => h x (List.mem_cons_of_mem _ hx)]

theorem Node.rebuiltFrom_congr (position : List Nat) (around : List Tag) (i : Nat) :
    (nodes : List Node) →
    (∀ x ∈ Node.placesFrom position around i nodes, reply x.position = reply' x.position) →
      Node.rebuiltFrom reply position i nodes = Node.rebuiltFrom reply' position i nodes
  | [], _ => rfl
  | n :: rest, h => by
      rw [rebuiltFrom, rebuiltFrom,
        rebuiltIn_congr _ _ n fun x hx => h x (List.mem_append_left _ hx),
        rebuiltFrom_congr _ _ (i + 1) rest fun x hx => h x (List.mem_append_right _ hx)]

end

/-- Replies for a node and for the siblings after it are about different positions. -/
theorem exists_agree (first others : List Nat → Visit) (p : List Nat) (i : Nat) (around : List Tag)
    (n : Node) (rest : List Node) :
    ∃ reply, RepliesAgree first reply p.length (n.placesIn (p ++ [i]) around) ∧
      RepliesAgree others reply p.length (Node.placesFrom p around (i + 1) rest) := by
  refine ⟨fun q => if p ++ [i] <+: q then first q else others q, fun x hx q hq hlt => ?_,
    fun x hx q hq hlt => ?_⟩
  · exact (if_pos (prefix_sibling (Node.prefix_of_mem_placesIn _ _ n x hx) hq hlt)).symm
  · obtain ⟨j, hij, hj⟩ := Node.exists_of_mem_placesFrom _ _ _ _ x hx
    refine (if_neg fun hi => Nat.ne_of_lt hij ?_).symm
    exact sibling_unique hi (prefix_sibling hj hq hlt)

end RepliesAgree

/-! ## Walks as runs -/

theorem Node.heightForest_childNodes {n : Node} {depth : Nat} (h : n.height ≤ depth) :
    Node.heightForest n.childNodes ≤ depth - 1 ∧ (depth = 0 → n.childNodes = []) := by
  cases n with
  | element tag children =>
      rw [height] at h
      exact ⟨Nat.le_sub_of_add_le h, fun h0 => by omega⟩
  | text _ | style _ _ | styleText _ => exact ⟨Nat.zero_le _, fun _ => rfl⟩

section Runs

variable {σ ε : Type} {visit : Node → ExceptT ε (StateM σ) Visit}

theorem Node.withChildNodes_childNodes (n : Node) : n.withChildNodes n.childNodes = n := by
  cases n <;> rfl

theorem Node.run_walk (visit : Node → ExceptT ε (StateM σ) Visit) (n : Node) (depth : Nat) (s : σ) :
    (n.walk visit depth).run s = match (visit n).run s with
      | (.error e, t) => (.error e, t)
      | (.ok (.keep m), t) => (.ok m, t)
      | (.ok (.descend m), t) =>
        match depth with
        | 0 => (.ok m, t)
        | depth + 1 =>
          (((Node.walkForest visit depth m.childNodes).run t).1.map m.withChildNodes,
            ((Node.walkForest visit depth m.childNodes).run t).2) := by
  rw [walk, run_bind]
  rcases (visit n).run s with ⟨e | (m | m), t⟩
  · rfl
  · cases m with
    | element tag children =>
        cases depth with
        | zero => rfl
        | succ depth =>
            change (Node.walkForest visit depth children >>=
                fun ms => pure (.element tag ms)).run t =
              (((Node.walkForest visit depth children).run t).1.map (Node.element tag),
                ((Node.walkForest visit depth children).run t).2)
            rw [run_bind]
            rcases (Node.walkForest visit depth children).run t with ⟨e | ms, t'⟩ <;> rfl
    | text _ | style _ _ | styleText _ => cases depth <;> rfl
  · rfl

/-- Where the visitor keeps the children, the walk goes on with those of the node itself. -/
theorem Node.run_walk_of_keeps {n : Node} {depth : Nat} (hdepth : n.height ≤ depth) (s : σ)
    (hkeeps : ∀ v, ((visit n).run s).1 = .ok v → v.Keeps n) :
    (n.walk visit depth).run s = match (visit n).run s with
      | (.error e, t) => (.error e, t)
      | (.ok (.keep m), t) => (.ok m, t)
      | (.ok (.descend m), t) =>
        (((Node.walkForest visit (depth - 1) n.childNodes).run t).1.map m.withChildNodes,
          ((Node.walkForest visit (depth - 1) n.childNodes).run t).2) := by
  rw [run_walk]
  rcases hv : (visit n).run s with ⟨e | (m | m), t⟩
  · rfl
  · have hm : m.childNodes = n.childNodes := hkeeps (.descend m) (by rw [hv])
    cases depth with
    | zero =>
        have hnil : n.childNodes = [] := (heightForest_childNodes hdepth).2 rfl
        have hself : m.withChildNodes [] = m := by
          rw [← hnil, ← hm, withChildNodes_childNodes]
        rw [hnil]
        exact congrArg (fun m => (Except.ok m, t)) hself.symm
    | succ depth => rw [← hm]; rfl
  · rfl

theorem Node.run_walkForest_cons (visit : Node → ExceptT ε (StateM σ) Visit) (depth : Nat)
    (n : Node) (rest : List Node) (s : σ) :
    (Node.walkForest visit depth (n :: rest)).run s = match (n.walk visit depth).run s with
      | (.error e, t) => (.error e, t)
      | (.ok m, t) => (((Node.walkForest visit depth rest).run t).1.map (m :: ·),
          ((Node.walkForest visit depth rest).run t).2) := by
  simp only [walkForest]
  rw [List.mapM_cons, run_bind]
  rcases (n.walk visit depth).run s with ⟨e | m, t⟩
  · rfl
  · dsimp only
    rw [run_bind]
    rcases (rest.mapM (Node.walk visit depth)).run t with ⟨e | ms, t'⟩ <;> rfl

/-- The record changes neither the answer of a walk nor the state. -/
theorem Node.run_walkForest_recorded (visit : Node → ExceptT ε (StateM σ) Visit) (depth : Nat)
    (nodes : List Node) (s : σ) (log : VisitLog ε) :
    ∃ log', (Node.walkForest (recorded visit) depth nodes).run (s, log) =
      (((Node.walkForest visit depth nodes).run s).1,
        ((Node.walkForest visit depth nodes).run s).2, log') := by
  -- on the depth, since the walk goes on inside the answer, which may be any node
  induction depth using Nat.strongRecOn generalizing nodes s log with
  | ind depth ih =>
    have hnode : ∀ (n : Node) s log, ∃ log', (n.walk (recorded visit) depth).run (s, log) =
        (((n.walk visit depth).run s).1, ((n.walk visit depth).run s).2, log') := by
      intro n s log
      have hrecorded : (recorded visit n).run (s, log) =
        (((visit n).run s).1, ((visit n).run s).2, log ++ [(n, ((visit n).run s).1)]) := rfl
      rw [run_walk, run_walk, hrecorded]
      rcases (visit n).run s with ⟨e | (m | m), t⟩
      · exact ⟨_, rfl⟩
      · cases depth with
        | zero => exact ⟨_, rfl⟩
        | succ depth =>
            obtain ⟨log', hlog'⟩ := ih depth (Nat.lt_succ_self depth) m.childNodes t
              (log ++ [(n, .ok (.descend m))])
            dsimp only
            rw [hlog']
            exact ⟨log', rfl⟩
      · exact ⟨_, rfl⟩
    induction nodes generalizing s log with
    | nil => exact ⟨log, rfl⟩
    | cons n rest ihrest =>
        obtain ⟨log₁, hlog₁⟩ := hnode n s log
        rw [run_walkForest_cons, run_walkForest_cons, hlog₁]
        rcases (n.walk visit depth).run s with ⟨e | m, t⟩
        · exact ⟨log₁, rfl⟩
        · obtain ⟨log₂, hlog₂⟩ := ihrest t log₁
          dsimp only
          rw [hlog₂]
          exact ⟨log₂, rfl⟩

end Runs

/-! ## Following a walk -/

section WalkFollows

variable {σ ε α : Type} {visit : Node → ExceptT ε (StateM σ) Visit}

/--
What a recorded walk did that began with the record `log` and was to visit the places that are due
among `l`: it called the visitor for them and answered with `rebuilt`, or the visitor failed at one
of them, and that was the last call.
-/
def WalkFollows (reply : List Nat → Visit) (above : Nat) (l : List Place) (rebuilt : α)
    (log : VisitLog ε) : Except ε α × (σ × VisitLog ε) → Prop
  | (.ok answer, _, log') =>
    log' = log ++ (l.filter fun x => x.IsDueBelow reply above).map (Place.call reply) ∧
      answer = rebuilt
  | (.error e, _, log') => ∃ done x after,
    l.filter (fun x => x.IsDueBelow reply above) = done ++ x :: after ∧
      log' = log ++ done.map (Place.call reply) ++ [(x.node, .error e)]

/-- Replies that agree on the places serve as well. -/
theorem WalkFollows.congr {reply reply' : List Nat → Visit} {above : Nat} {l : List Place} {b : α}
    {log : VisitLog ε} {r : Except ε α × (σ × VisitLog ε)} (h : WalkFollows reply above l b log r)
    (hagree : RepliesAgree reply reply' above l) (hl : ∀ x ∈ l, above < x.position.length) :
    WalkFollows reply' above l b log r := by
  have hcall : ∀ x ∈ l.filter (fun x => x.IsDueBelow reply' above),
      (Place.call reply x : Node × Except ε Visit) = Place.call reply' x := by
    intro x hx
    have hx := (List.mem_filter.mp hx).1
    rw [Place.call, Place.call, hagree x hx _ (List.prefix_refl _) (hl x hx)]
  obtain ⟨e | answer, t, log'⟩ := r
  · obtain ⟨done, x, after, hdue, rfl⟩ := h
    rw [hagree.due] at hdue
    refine ⟨done, x, after, hdue, ?_⟩
    rw [List.map_congr_left fun y hy => hcall y (hdue ▸ List.mem_append_left _ hy)]
  · obtain ⟨rfl, rfl⟩ := h
    refine ⟨?_, rfl⟩
    rw [hagree.due, List.map_congr_left hcall]

/-- One walk after the other. -/
theorem WalkFollows.cons {reply : List Nat → Visit} {above : Nat} {l₁ l₂ : List Place} {m b₁ : α}
    {b₂ : List α} {log log₁ : VisitLog ε} {t : σ} {r : Except ε (List α) × (σ × VisitLog ε)}
    (h₁ : WalkFollows reply above l₁ b₁ log (.ok m, t, log₁))
    (h₂ : WalkFollows reply above l₂ b₂ log₁ r) :
    WalkFollows reply above (l₁ ++ l₂) (b₁ :: b₂) log (r.1.map (m :: ·), r.2) := by
  obtain ⟨rfl, rfl⟩ := h₁
  obtain ⟨e | answer, t', log₂⟩ := r
  · obtain ⟨done, x, after, hdone, rfl⟩ := h₂
    refine ⟨l₁.filter (fun x => x.IsDueBelow reply above) ++ done, x, after, ?_, ?_⟩
    · rw [List.filter_append, hdone, List.append_assoc]
    · rw [List.map_append, List.append_assoc log]
  · obtain ⟨rfl, rfl⟩ := h₂
    refine ⟨?_, rfl⟩
    rw [List.filter_append, List.map_append, List.append_assoc]

theorem lt_length_of_mem_placesIn {p : List Nat} {i : Nat} {around : List Tag} {n : Node} :
    ∀ x ∈ n.placesIn (p ++ [i]) around, p.length < x.position.length := by
  intro x hx
  have := (Node.prefix_of_mem_placesIn _ _ _ x hx).length_le
  rw [List.length_append, List.length_singleton] at this
  omega

theorem lt_length_of_mem_placesFrom {p : List Nat} {i : Nat} {around : List Tag}
    {nodes : List Node} : ∀ x ∈ Node.placesFrom p around i nodes, p.length < x.position.length := by
  intro x hx
  obtain ⟨j, -, hj⟩ := Node.exists_of_mem_placesFrom _ _ _ _ x hx
  have := hj.length_le
  rw [List.length_append, List.length_singleton] at this
  omega

/-- The reply to a node is added to the replies for what is in it. -/
theorem WalkFollows.descend {reply : List Nat → Visit} {n m : Node} {p : List Nat} {i : Nat}
    {around : List Tag} {log : VisitLog ε} {r : Except ε (List Node) × (σ × VisitLog ε)}
    (h : WalkFollows reply (p ++ [i]).length
      (Node.placesFrom (p ++ [i]) (n.inside around) 0 n.childNodes)
      (Node.rebuiltFrom reply (p ++ [i]) 0 n.childNodes) (log ++ [(n, .ok (.descend m))]) r) :
    ∃ reply, WalkFollows reply p.length (n.placesIn (p ++ [i]) around)
      (n.rebuiltIn reply (p ++ [i])) log (r.1.map m.withChildNodes, r.2) := by
  -- the reply at the node itself is set; everywhere below it the given replies stand
  set reply' := Function.update reply (p ++ [i]) (.descend m) with hreply'
  have hself : reply' (p ++ [i]) = .descend m := Function.update_self _ _ _
  have hagree : RepliesAgree reply reply' (p ++ [i]).length
      (Node.placesFrom (p ++ [i]) (n.inside around) 0 n.childNodes) := by
    intro x _ q _ hq
    refine (Function.update_of_ne ?_ _ _).symm
    rintro rfl
    exact Nat.lt_irrefl _ hq
  have hrebuilt : Node.rebuiltFrom reply (p ++ [i]) 0 n.childNodes =
      Node.rebuiltFrom reply' (p ++ [i]) 0 n.childNodes :=
    Node.rebuiltFrom_congr _ (n.inside around) 0 _ fun x hx =>
      hagree x hx _ (List.prefix_refl _) (lt_length_of_mem_placesFrom x hx)
  have hdue : (n.placesIn (p ++ [i]) around).filter (fun x => x.IsDueBelow reply' p.length) =
      ⟨p ++ [i], around, n⟩ ::
        (Node.placesFrom (p ++ [i]) (n.inside around) 0 n.childNodes).filter
          fun x => x.IsDueBelow reply' (p ++ [i]).length := by
    rw [due_placesIn, hself]
    rfl
  have hcall : (Place.call reply' ⟨p ++ [i], around, n⟩ : Node × Except ε Visit) =
      (n, .ok (.descend m)) := by rw [Place.call, hself]
  have hchildren := h.congr hagree lt_length_of_mem_placesFrom
  refine ⟨reply', ?_⟩
  obtain ⟨e | children, t, log'⟩ := r
  · obtain ⟨done, x, after, hdone, rfl⟩ := hchildren
    refine ⟨⟨p ++ [i], around, n⟩ :: done, x, after, by rw [hdue, hdone]; rfl, ?_⟩
    rw [List.map_cons, hcall, List.append_assoc log, List.singleton_append]
  · obtain ⟨rfl, rfl⟩ := hchildren
    refine ⟨?_, ?_⟩
    · rw [hdue, List.map_cons, hcall, List.append_assoc log, List.singleton_append]
    · rw [Node.rebuiltIn_eq, hself, hrebuilt]
      rfl

/-- One node, if the walk can be followed through its children. -/
theorem Node.follows_walk_of_children {n : Node} {p : List Nat} {i : Nat} {around : List Tag}
    {depth : Nat} (hdepth : n.height ≤ depth) (s : σ) (log : VisitLog ε)
    (hkeeps : ∀ v, ((visit n).run s).1 = .ok v → v.Keeps n)
    (hchildren : ∀ t log', ∃ reply, WalkFollows reply (p ++ [i]).length
      (Node.placesFrom (p ++ [i]) (n.inside around) 0 n.childNodes)
      (Node.rebuiltFrom reply (p ++ [i]) 0 n.childNodes) log'
      ((Node.walkForest (recorded visit) (depth - 1) n.childNodes).run (t, log'))) :
    ∃ reply, WalkFollows reply p.length (n.placesIn (p ++ [i]) around)
      (n.rebuiltIn reply (p ++ [i])) log ((n.walk (recorded visit) depth).run (s, log)) := by
  have hrecorded : (recorded visit n).run (s, log) =
      (((visit n).run s).1, ((visit n).run s).2, log ++ [(n, ((visit n).run s).1)]) := rfl
  rw [run_walk_of_keeps hdepth (s, log) fun v hv => hkeeps v hv, hrecorded]
  rcases hv : (visit n).run s with ⟨e | (m | m), t⟩
  · refine ⟨fun _ => .keep n, [], ⟨p ++ [i], around, n⟩, [], ?_, ?_⟩
    · rw [due_placesIn]
      rfl
    · rw [List.map_nil, List.append_nil]
  · obtain ⟨reply, hreply⟩ := hchildren t (log ++ [(n, .ok (.descend m))])
    obtain ⟨reply', hreply'⟩ := hreply.descend
    exact ⟨reply', hreply'⟩
  · refine ⟨fun _ => .keep m, ?_, ?_⟩
    · rw [due_placesIn]
      rfl
    · rw [rebuiltIn_eq]
      rfl

mutual

theorem Node.follows_walk (hkeeps : ∀ n s v, ((visit n).run s).1 = .ok v → v.Keeps n)
    (p : List Nat) (i : Nat) (around : List Tag) : (n : Node) → (depth : Nat) →
    n.height ≤ depth → (s : σ) → (log : VisitLog ε) →
      ∃ reply, WalkFollows reply p.length (n.placesIn (p ++ [i]) around)
        (n.rebuiltIn reply (p ++ [i])) log ((n.walk (recorded visit) depth).run (s, log))
  | .element tag children, depth, hdepth, s, log =>
      follows_walk_of_children hdepth s log (hkeeps _ s) fun t log' =>
        follows_walkForest hkeeps (p ++ [i]) (around ++ [tag]) 0 children (depth - 1)
          (heightForest_childNodes hdepth).1 t log'
  | .text _, _, hdepth, s, log =>
      follows_walk_of_children hdepth s log (hkeeps _ s) fun _ log' =>
        ⟨fun _ => .keep default, (List.append_nil log').symm, rfl⟩
  | .style _ _, _, hdepth, s, log =>
      follows_walk_of_children hdepth s log (hkeeps _ s) fun _ log' =>
        ⟨fun _ => .keep default, (List.append_nil log').symm, rfl⟩
  | .styleText _, _, hdepth, s, log =>
      follows_walk_of_children hdepth s log (hkeeps _ s) fun _ log' =>
        ⟨fun _ => .keep default, (List.append_nil log').symm, rfl⟩

theorem Node.follows_walkForest (hkeeps : ∀ n s v, ((visit n).run s).1 = .ok v → v.Keeps n)
    (p : List Nat) (around : List Tag) (i : Nat) : (nodes : List Node) → (depth : Nat) →
    Node.heightForest nodes ≤ depth → (s : σ) → (log : VisitLog ε) →
      ∃ reply, WalkFollows reply p.length (Node.placesFrom p around i nodes)
        (Node.rebuiltFrom reply p i nodes) log
          ((Node.walkForest (recorded visit) depth nodes).run (s, log))
  | [], _, _, _, log => ⟨fun _ => .keep default, (List.append_nil log).symm, rfl⟩
  | n :: rest, depth, hdepth, s, log => by
      rw [heightForest] at hdepth
      obtain ⟨first, hfirst⟩ := follows_walk hkeeps p i around n depth
        (Nat.le_trans (Nat.le_max_left _ _) hdepth) s log
      rw [run_walkForest_cons]
      rcases hrun : (n.walk (recorded visit) depth).run (s, log) with ⟨e | m, t, log₁⟩ <;>
        rw [hrun] at hfirst
      · obtain ⟨done, x, after, hdone, rfl⟩ := hfirst
        refine ⟨first, done, x, after ++ (Node.placesFrom p around (i + 1) rest).filter
          fun x => x.IsDueBelow first p.length, ?_, rfl⟩
        rw [placesFrom, List.filter_append, hdone, List.append_assoc, List.cons_append]
      · obtain ⟨others, hothers⟩ := follows_walkForest hkeeps p around (i + 1) rest depth
          (Nat.le_trans (Nat.le_max_right _ _) hdepth) t log₁
        -- the replies of the node and of its siblings are about different places, so one function
        -- has both
        obtain ⟨reply, hagree, hagree'⟩ := exists_agree first others p i around n rest
        have hfirst := hfirst.congr hagree lt_length_of_mem_placesIn
        have hothers := hothers.congr hagree' lt_length_of_mem_placesFrom
        have hrebuilt : n.rebuiltIn first (p ++ [i]) = n.rebuiltIn reply (p ++ [i]) :=
          rebuiltIn_congr _ around n fun x hx =>
            hagree x hx _ (List.prefix_refl _) (lt_length_of_mem_placesIn x hx)
        have hrebuilt' : rebuiltFrom others p (i + 1) rest = rebuiltFrom reply p (i + 1) rest :=
          rebuiltFrom_congr _ around (i + 1) rest fun x hx =>
            hagree' x hx _ (List.prefix_refl _) (lt_length_of_mem_placesFrom x hx)
        refine ⟨reply, ?_⟩
        rw [placesFrom, rebuiltFrom, ← hrebuilt, ← hrebuilt']
        exact hfirst.cons hothers

end

/-- A visitor that puts every node back where it was leaves the forest as it is. -/
theorem Node.walkForest_self (hself : ∀ n s, ∃ t, (visit n).run s = (.ok (.descend n), t))
    (depth : Nat) (nodes : List Node) (s : σ) :
    ∃ t, (Node.walkForest visit depth nodes).run s = (.ok nodes, t) := by
  -- on the depth for what is below a node, and then on the forest for what is beside it
  induction depth using Nat.strongRecOn generalizing nodes s with
  | ind depth ih =>
    have hnode : ∀ (n : Node) s, ∃ t, (n.walk visit depth).run s = (.ok n, t) := by
      intro n s
      obtain ⟨t, ht⟩ := hself n s
      rw [run_walk, ht]
      cases depth with
      | zero => exact ⟨t, rfl⟩
      | succ depth =>
          obtain ⟨t', ht'⟩ := ih depth (Nat.lt_succ_self depth) n.childNodes t
          refine ⟨t', ?_⟩
          dsimp only
          rw [ht']
          exact congrArg (fun m => (Except.ok m, t')) (withChildNodes_childNodes n)
    induction nodes generalizing s with
    | nil => exact ⟨s, rfl⟩
    | cons n rest ihrest =>
        obtain ⟨t, ht⟩ := hnode n s
        obtain ⟨t', ht'⟩ := ihrest t
        rw [run_walkForest_cons, ht]
        dsimp only
        rw [ht']
        exact ⟨t', rfl⟩

end WalkFollows

namespace Node

variable {σ ε : Type}

/--
**A walk calls its visitor for the nodes that are due, in document order and once each, until the
visitor fails, and puts the replies in their places.** The visitor may change its state and fail as
it likes, as long as it leaves the children of the nodes that it does not keep as they are. The walk
ends as soon as the visitor is done: a limit on its depth plays no part from the height of the
forest on.
-/
theorem walkForest_calls (visit : Node → ExceptT ε (StateM σ) Visit)
    (hkeeps : ∀ n s v, ((visit n).run s).1 = .ok v → v.Keeps n) (nodes : List Node) (depth : Nat)
    (hdepth : heightForest nodes ≤ depth) (s : σ) :
    let walked := (walkForest visit depth nodes).run s
    ∃ (reply : List Nat → Visit) (calls : VisitLog ε),
      (walkForest (recorded visit) depth nodes).run (s, []) = (walked.1, walked.2, calls) ∧
      let due := (places nodes).filter fun x => x.IsDue reply
      (due.map Place.position).Nodup ∧
      (match walked.1 with
        | .ok result => calls = due.map (Place.call reply) ∧ result = rebuilt reply nodes
        | .error e => ∃ done x after, due = done ++ x :: after ∧
            calls = done.map (Place.call reply) ++ [(x.node, .error e)]) ∧
      ((∀ n t, ((visit n).run t).1 = .ok (.descend n)) → walked.1 = .ok nodes) := by
  obtain ⟨calls, hcalls⟩ := run_walkForest_recorded visit depth nodes s []
  obtain ⟨reply, hfollows⟩ := follows_walkForest hkeeps [] [] 0 nodes depth hdepth s []
  rw [hcalls] at hfollows
  intro walked
  refine ⟨reply, calls, hcalls, ?_, ?_, fun hself => ?_⟩
  · exact (nodup_placesFrom [] [] 0 nodes).sublist (List.filter_sublist.map _)
  · change WalkFollows reply 0 (placesFrom [] [] 0 nodes) (rebuiltFrom reply [] 0 nodes) []
      (walked.1, walked.2, calls) at hfollows
    generalize walked = r at hfollows ⊢
    rcases r with ⟨e | result, t⟩ <;> exact hfollows
  · obtain ⟨t, ht⟩ := walkForest_self (fun n t => ⟨_, Prod.ext (hself n t) rfl⟩) depth nodes s
    exact congrArg Prod.fst ht

end Node

namespace Sample

/-- Numbers elements by the calls, keeps cards whole, and fails when it was called often enough. -/
def numbering (limit : Nat) (n : Node) : ExceptT String (StateM Nat) Visit := fun count =>
  if count = limit then (.error "too many", count + 1)
  else match n with
    | .element tag children =>
      let numbered := Node.element (tag.withAttribute "n" (toString count)) children
      (.ok (if tag.name = "x-card" then .keep numbered else .descend numbered), count + 1)
    | leaf => (.ok (.descend leaf), count + 1)

/-- Puts every node back and counts. -/
def counting (n : Node) : ExceptT String (StateM Nat) Visit := fun count =>
  (.ok (.descend n), count + 1)

/-- A paragraph with a card in it, and an image after it. -/
def leaflet : List Node :=
  [.element (.ofName "p") [.text "a", .element (.ofName "x-card") [.text "b"], .text "c"],
    .element (.ofName "img") []]

theorem numbering_keeps (limit : Nat) (n : Node) (s : Nat) (v : Visit)
    (h : ((numbering limit n).run s).1 = .ok v) : v.Keeps n := by
  by_cases hs : s = limit
  · simp [numbering, ExceptT.run, hs] at h
  · cases n with
    | element tag children =>
        simp only [numbering, ExceptT.run, if_neg hs, Except.ok.injEq] at h
        subst h
        split_ifs
        · trivial
        · rfl
    | text _ | style _ _ | styleText _ =>
        simp only [numbering, ExceptT.run, if_neg hs, Except.ok.injEq] at h
        subst h
        rfl

end Sample

open Sample in
/-- The walk passes over what is in the card, and ends at the image. -/
theorem walkForest_calls_leaflet :
    (∀ n s v, ((numbering 4 n).run s).1 = .ok v → v.Keeps n) ∧ Node.heightForest leaflet ≤ 2 ∧
      (∃ (reply : List Nat → Visit) (calls : VisitLog String),
        (Node.walkForest (recorded (numbering 4)) 2 leaflet).run (0, []) =
          (.error "too many", 5, calls) ∧ calls.length = 5 ∧
        ∃ done x after, (Node.places leaflet).filter (fun x => x.IsDue reply) = done ++ x :: after ∧
          calls = done.map (Place.call reply) ++ [(x.node, .error "too many")]) ∧
      ((Node.walkForest counting 2 leaflet).run 0).1 = .ok leaflet := by
  have hheight : Node.heightForest leaflet ≤ 2 := by decide
  have herror : ((Node.walkForest (numbering 4) 2 leaflet).run 0).1.map (fun _ => ()) =
      .error "too many" := by decide +kernel
  have hcount : ((Node.walkForest (numbering 4) 2 leaflet).run 0).2 = 5 := by decide +kernel
  have hfails : (Node.walkForest (numbering 4) 2 leaflet).run 0 = (.error "too many", 5) := by
    refine Prod.ext ?_ hcount
    cases hrun : ((Node.walkForest (numbering 4) 2 leaflet).run 0).1 <;> rw [hrun] at herror <;>
      cases herror
    rfl
  have hlength :
      ((Node.walkForest (recorded (numbering 4)) 2 leaflet).run (0, [])).2.2.length = 5 := by
    decide +kernel
  obtain ⟨reply, calls, hcalls, -, hdue, -⟩ :=
    Node.walkForest_calls (numbering 4) (numbering_keeps 4) leaflet 2 hheight 0
  obtain ⟨-, -, -, -, -, hself⟩ :=
    Node.walkForest_calls counting (fun _ _ _ h => by cases h; rfl) leaflet 2 hheight 0
  rw [hcalls] at hlength
  rw [hfails] at hcalls hdue
  exact ⟨numbering_keeps 4, hheight, ⟨reply, calls, hcalls, hlength, hdue⟩, hself fun _ _ => rfl⟩

end CustomElements
