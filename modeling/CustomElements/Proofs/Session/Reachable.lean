import CustomElements.Proofs.Component.Dependencies
import CustomElements.Proofs.Expansion.Ledger

/-!
# The sessions that there are

`Progress.Reachable` is every state that a session can be brought into from the moment it is made,
by any order of the operations that a session offers. Between two of them other sessions may be at
work, which create instances and call render functions of their own.

Instances draw their identities from one sequence, so every cached result belongs to one that has
been created (`Progress.Reachable.cacheCreated`). An instance that is created now finds nothing in
the cache, and when it is ended the cache is as it was (`Expands.keepsCache`). And every name that a
session knows is that which its definition declares (`Progress.Reachable.declared`).
-/

namespace CustomElements

namespace Progress

/-- One operation on the session. -/
inductive Operation : Progress → Progress → Prop where
  /-- Instances are created and render functions called outside of this session. -/
  | elsewhere {p : Progress} {journal : Journal} (later : p.journal.instances ≤ journal.instances) :
      Operation p { p with journal := journal }
  | register {p : Progress} (c : Catalog) (d : Definition) :
      Operation p { p with session := p.session.register c d }
  | nextUniqueIndex {p : Progress} (definition : Nat) :
      Operation p { p with session := (p.session.nextUniqueIndex definition).2 }
  | markGlobalEmitted {p : Progress} (definition : Nat) :
      Operation p { p with session := (p.session.markGlobalEmitted definition).2 }
  | takePending {p : Progress} : Operation p { p with session := p.session.takePending.2 }
  | endInstance {p : Progress} (id : Nat) : Operation p (p.endInstance id)
  | render {p : Progress} (t : Template) (reason : Change) (inst : Instance)
      (created : inst.id < p.journal.instances) :
      Operation p ⟨(p.session.render p.journal t reason inst).session,
        (p.session.render p.journal t reason inst).journal⟩
  | renderText {p : Progress} (d : Deliveries) (t : Template) (reason : Change) (inst : Instance)
      (created : inst.id < p.journal.instances) :
      Operation p ⟨(p.session.renderText p.journal d t reason inst).session,
        (p.session.renderText p.journal d t reason inst).journal⟩
  | scopeStyles {p : Progress} (d : Deliveries) (classPrefix : String) (definition : Definition)
      (inst : Instance) (created : inst.id < p.journal.instances) :
      Operation p ((scopeStyles d classPrefix definition).run ⟨p, inst⟩).2.progress
  | elementToTag {p : Progress} (r : Renderer) (c : Catalog) (d : Deliveries) (depth : Nat)
      (definition : Definition) (attributes : Props) (theme : Option Theme) :
      Operation p (r.elementToTag c d depth definition attributes theme p).2

/-- What a session can be brought into. -/
inductive Reachable : Progress → Prop where
  | fresh (templater : Nat) (journal : Journal) : Reachable ⟨.empty templater, journal⟩
  | tail {p p' : Progress} : Reachable p → Operation p p' → Reachable p'

/-- Every cached result belongs to an instance that has been created. -/
def CacheCreated (p : Progress) : Prop :=
  ∀ e ∈ p.session.memo.entries, e.1.component < p.journal.instances

end Progress

/-! ## Instances and the cache -/

/-- To release an instance that nothing belongs to changes nothing. -/
theorem Memo.releaseComponent_of_lt {m : Memo} {id : Nat}
    (h : ∀ e ∈ m.entries, e.1.component < id) : (m.releaseComponent id).2 = m := by
  obtain ⟨entries⟩ := m
  simp only [releaseComponent, releaseWhere, Memo.mk.injEq, List.filter_eq_self]
  intro e he
  have hlt := h e he
  simp only [Bool.not_eq_true', beq_eq_false_iff_ne, ne_eq]
  omega

theorem Memo.mem_of_mem_releaseComponent {m : Memo} {id : Nat} {e : CacheKey × RenderResult}
    (h : e ∈ (m.releaseComponent id).2.entries) : e ∈ m.entries := (List.mem_filter.mp h).1

/-- A result is either of the instance or unaffected by its release. -/
theorem Memo.mem_releaseComponent {m : Memo} {id : Nat} {e : CacheKey × RenderResult}
    (h : e ∈ m.entries) (hne : e.1.component ≠ id) : e ∈ (m.releaseComponent id).2.entries :=
  List.mem_filter.mpr ⟨h, by simpa using hne⟩

theorem Work.Grows.cacheCreated {w v : Work} (h : w.Grows v)
    (hid : w.inst.id < w.progress.journal.instances) (hw : w.progress.CacheCreated) :
    v.progress.CacheCreated := by
  intro e he
  rw [h.instances]
  by_cases hne : e.1.component = w.inst.id
  · omega
  · have hm := Memo.mem_releaseComponent he hne
    rw [h.cache] at hm
    exact hw e (Memo.mem_of_mem_releaseComponent hm)

/-- The cache is as it was. Instances may have been created. -/
structure Progress.KeepsCache (p p' : Progress) : Prop where
  memo : p'.session.memo = p.session.memo
  instances : p.journal.instances ≤ p'.journal.instances

namespace Progress.KeepsCache

theorem refl (p : Progress) : p.KeepsCache p := ⟨rfl, Nat.le_refl _⟩

theorem trans {p p' p'' : Progress} (h : p.KeepsCache p') (h' : p'.KeepsCache p'') :
    p.KeepsCache p'' :=
  ⟨h'.memo.trans h.memo, Nat.le_trans h.instances h'.instances⟩

theorem cacheCreated {p p' : Progress} (h : p.KeepsCache p') (hp : p.CacheCreated) :
    p'.CacheCreated := by
  intro e he
  rw [h.memo] at he
  exact Nat.lt_of_lt_of_le (hp e he) h.instances

end Progress.KeepsCache

variable {r : Renderer} {d : Deliveries} {theme : Option Theme}

section Occurrence

variable {definition : Definition} {tagName : String} {attributes : Props} {content : List Node}
  {p : Progress} {o : Occurrence}

theorem cacheCreated_parts (begins : o = r.begin d theme definition tagName attributes content p)
    (hp : p.CacheCreated) : o.parts.2.progress.CacheCreated := by
  subst begins
  refine Work.Grows.cacheCreated (Occurrence.grows_parts _) (Nat.lt_succ_self _) ?_
  exact fun e he => Nat.lt_succ_of_lt (hp e he)

theorem kept_cacheCreated : Kept r d theme Progress.CacheCreated where
  parts := cacheCreated_parts
  ended _ hp e he := hp e (Memo.mem_of_mem_releaseComponent he)

/-- An occurrence leaves nothing in the cache, if what is nested in it leaves nothing there. -/
theorem keepsCache_endInstance
    (begins : o = r.begin d theme definition tagName attributes content p) (hp : p.CacheCreated)
    {q : Progress} (hq : o.parts.2.progress.KeepsCache q) :
    p.KeepsCache (q.endInstance o.start.inst.id) where
  memo := by
    -- the parts have added results of this instance only, and its release takes those away
    have hparts := o.grows_parts.cache
    change (q.session.memo.releaseComponent o.start.inst.id).2 = _
    rw [hq.memo, hparts, begins]
    exact Memo.releaseComponent_of_lt hp
  instances := by
    have hparts := o.grows_parts.instances
    have hstart : o.start.progress.journal.instances = p.journal.instances + 1 := by
      rw [begins]; rfl
    have hq' := hq.instances
    change _ ≤ q.journal.instances
    omega

end Occurrence

/-- **However an expansion ends, it leaves the cache as it was.** -/
theorem Expands.keepsCache {task : Task} {p p' : Progress} {result : Except Stop (List Node)}
    {os : List Occurrence} (h : Expands r d theme task p result p' os) (hp : p.CacheCreated) :
    p.KeepsCache p' := by
  induction h with
  | kept _ => exact .refl _
  | plain _ _ _ ih => exact ih hp
  | custom _ _ _ _ ih ih' => exact (ih hp).trans (ih' ((ih hp).cacheCreated hp))
  | contentStops _ _ _ ih => exact ih hp
  | nil => exact .refl _
  | cons _ _ ih ih' => exact (ih hp).trans (ih' ((ih hp).cacheCreated hp))
  | firstStops _ ih => exact ih hp
  | noRoom => exact .refl _
  | partsStop begins parts =>
      refine keepsCache_endInstance begins hp ?_
      rw [parts]
      exact .refl _
  | passed begins parts =>
      refine keepsCache_endInstance begins hp ?_
      rw [parts]
      exact .refl _
  | filled begins parts _ ih =>
      have hcreated := cacheCreated_parts begins hp
      rw [parts] at hcreated
      refine keepsCache_endInstance begins hp ?_
      rw [parts]
      exact ih hcreated

/-! ## A whole call -/

theorem Renderer.keepsCache_elementToTag (r : Renderer) (c : Catalog) (d : Deliveries) (depth : Nat)
    (definition : Definition) (attributes : Props) (theme : Option Theme) {p : Progress}
    (hp : p.CacheCreated) :
    p.KeepsCache (r.elementToTag c d depth definition attributes theme p).2 := by
  obtain ⟨q, os, ⟨n, heq, hx⟩ | ⟨stop, heq, hx⟩⟩ :=
    r.elementToTag_cases c d depth definition attributes theme p
  · rw [heq]
    exact ⟨(hx.keepsCache hp).memo, (hx.keepsCache hp).instances⟩
  · -- going back to the checkpoint does not touch the cache
    rw [heq]
    exact ⟨(hx.keepsCache hp).memo, (hx.keepsCache hp).instances⟩

/-! ## Every reachable state -/

theorem Progress.Operation.cacheCreated {p p' : Progress} (h : p.Operation p')
    (hp : p.CacheCreated) : p'.CacheCreated := by
  -- what an operation does for an instance that exists leaves only results of that instance
  have works : ∀ {w v : Work}, w.Grows v → w.progress = p →
      w.inst.id < p.journal.instances → v.progress.CacheCreated := by
    rintro w v hg rfl hid
    exact hg.cacheCreated hid hp
  cases h with
  | elsewhere later => exact fun e he => Nat.lt_of_lt_of_le (hp e he) later
  | register c d => exact hp
  | nextUniqueIndex definition => exact hp
  | markGlobalEmitted definition =>
      rw [Session.markGlobalEmitted_frame]
      exact hp
  | takePending => exact hp
  | endInstance id => exact fun e he => hp e (Memo.mem_of_mem_releaseComponent he)
  | render t reason inst created =>
      exact works (Work.grows_render ⟨p, inst⟩ t reason) rfl created
  | renderText d t reason inst created =>
      exact works (Work.grows_renderText ⟨p, inst⟩ d t reason) rfl created
  | scopeStyles d classPrefix definition inst created =>
      exact works (onlyGrows_scopeStyles d classPrefix definition ⟨p, inst⟩) rfl created
  | elementToTag r c d depth definition attributes theme =>
      exact (r.keepsCache_elementToTag c d depth definition attributes theme hp).cacheCreated hp

theorem Progress.Reachable.cacheCreated {p : Progress} (h : p.Reachable) : p.CacheCreated := by
  induction h with
  | fresh templater journal => exact fun e he => absurd he (by simp [Session.empty, Memo.empty])
  | tail _ hs ih => exact hs.cacheCreated ih

/-! ## Known names -/

/-- Every known name is that which its definition declares. -/
def TagMap.Declared (map : TagMap) : Prop :=
  ∀ name definition, map.get? name = some definition → definition.tagName = some name

namespace Catalog

theorem declared_register (c : Catalog) (d : Definition) {map : TagMap} (h : map.Declared) :
    TagMap.Declared (c.register d map) := by
  obtain ⟨order, -, hget⟩ := c.exists_get?_register d
  intro name definition hsome
  rw [hget] at hsome
  rcases hmap : map.get? name with - | known <;> rw [hmap] at hsome
  · simpa using List.find?_some hsome
  · cases hsome
    exact h name definition hmap

end Catalog

theorem Renderer.tagMap_elementToTag (r : Renderer) (c : Catalog) (d : Deliveries) (depth : Nat)
    (definition : Definition) (attributes : Props) (theme : Option Theme) (p : Progress) :
    (r.elementToTag c d depth definition attributes theme p).2.session.tagMap =
      c.register definition p.session.tagMap := by
  obtain ⟨q, os, ⟨n, heq, hx⟩ | ⟨stop, heq, hx⟩⟩ :=
    r.elementToTag_cases c d depth definition attributes theme p <;>
  · rw [heq]
    exact hx.grows.tagMap

theorem Progress.Operation.declared {p p' : Progress} (h : p.Operation p')
    (hp : p.session.tagMap.Declared) : p'.session.tagMap.Declared := by
  cases h with
  | elsewhere later => exact hp
  | register c d => exact c.declared_register d hp
  | nextUniqueIndex definition => exact hp
  | markGlobalEmitted definition =>
      rw [Session.markGlobalEmitted_frame]
      exact hp
  | takePending => exact hp
  | endInstance id => exact hp
  | render t reason inst created => exact hp
  | renderText d t reason inst created => exact hp
  | scopeStyles d classPrefix definition inst created =>
      have hsame := (onlyGrows_scopeStyles d classPrefix definition ⟨p, inst⟩).session.tagMap
      rw [hsame]
      exact hp
  | elementToTag r c d depth definition attributes theme =>
      rw [r.tagMap_elementToTag]
      exact c.declared_register definition hp

theorem Progress.Reachable.declared {p : Progress} (h : p.Reachable) :
    p.session.tagMap.Declared := by
  induction h with
  | fresh templater journal => exact fun _ _ h => by cases h
  | tail _ hs ih => exact hs.declared ih

end CustomElements
