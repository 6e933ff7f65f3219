import CustomElements.Proofs.Cache.Slots

/-!
# The cache and its history

What the cache is to hold can be told from what has happened: the slot of a key holds the result of
the last computation for that key that succeeded, unless something has emptied the slot since
(`slotOf`). Here a run is any sequence of the operations that a cache offers, on a cache that begins
empty, with any templates, reasons and instances, and with render functions that may fail and may
answer differently each time.

`Tracks` relates the cache to its history and is preserved by every operation. `Refines` then says
of every call that could come next how it is answered, and of every count what it counts.
-/

namespace CustomElements

/-! ## Operations -/

/-- What a cache works on: its results, and the journal that outlives it. -/
structure CacheState where
  memo : Memo
  journal : Journal

/-- A request for a template's result. -/
structure CacheRequest where
  template : Template
  reason : Change
  inst : Instance
  templater : Nat

namespace CacheRequest

/-- The slot that the request is about. -/
def key (q : CacheRequest) : CacheKey := ⟨q.templater, q.inst.id, q.template.id⟩

/-- The call of the render function that may answer the request. -/
def call (q : CacheRequest) : Call := ⟨q.inst, q.reason⟩

/-- What the render function, if there is one, answers to the call after the calls so far. -/
def outcome? (q : CacheRequest) (j : Journal) : Option Outcome :=
  q.template.run?.map fun run => run (j.history q.template.id) q.call

/-- The request as it is answered with a result. -/
def render (q : CacheRequest) (s : CacheState) : Rendering RenderResult :=
  s.memo.render s.journal q.template q.reason q.inst q.templater

/-- The request as it is answered with a text. -/
def renderText (q : CacheRequest) (d : Deliveries) (s : CacheState) : Rendering CoercedText :=
  s.memo.renderText s.journal d q.template q.reason q.inst q.templater

/--
The render function has to be called: there is one, and its slot is empty or the reason concerns a
template that reacts to changes.
-/
def due (q : CacheRequest) (slot : CacheKey → Option RenderResult) : Bool :=
  q.template.run?.isSome &&
    ((slot q.key).isNone || (!q.template.mask.isNever && q.reason.intersects q.template.mask))

end CacheRequest

/-- An operation on a cache. -/
inductive CacheOp where
  | render (q : CacheRequest)
  | renderText (q : CacheRequest) (d : Deliveries)
  | releaseComponent (component : Nat)
  | releaseTemplater (templater : Nat)
  | clear
  /-- Render functions are called outside of this cache. -/
  | elsewhere (journal : Journal)

namespace CacheOp

/-- What the operation leads to. -/
def apply (s : CacheState) : CacheOp → CacheState
  | .render q => ⟨(q.render s).memo, (q.render s).journal⟩
  | .renderText q d => ⟨(q.renderText d s).memo, (q.renderText d s).journal⟩
  | .releaseComponent component => { s with memo := (s.memo.releaseComponent component).2 }
  | .releaseTemplater templater => { s with memo := (s.memo.releaseTemplater templater).2 }
  | .clear => { s with memo := .empty }
  | .elsewhere journal => { s with journal := journal }

/-- The request that the operation makes. -/
def request? : CacheOp → Option CacheRequest
  | .render q | .renderText q _ => some q
  | _ => none

end CacheOp

/-! ## What has happened -/

/-- Something that concerns what slots are to hold. -/
inductive CacheEvent where
  /-- A render function was called for the key, and succeeded. -/
  | computed (key : CacheKey) (result : RenderResult)
  /-- The slots of all keys that satisfy the test were emptied. -/
  | emptied (covers : CacheKey → Bool)

/-- What a slot is to hold after the events, latest first. -/
def slotOf : List CacheEvent → CacheKey → Option RenderResult
  | [], _ => none
  | .computed key result :: earlier, k => if k = key then some result else slotOf earlier k
  | .emptied covers :: earlier, k => if covers k then none else slotOf earlier k

/--
The event of a request, told from the journal before and after it: if the journal shows a call, then
what the render function answered to it.
-/
def CacheRequest.event? (q : CacheRequest) (before after : Journal) : Option CacheEvent :=
  if after.calls.length = before.calls.length then none
  else match (q.outcome? before).map Outcome.result with
    | some (.ok result) => some (.computed q.key result)
    | _ => none

/-- The event of an operation. -/
def CacheOp.event? (s : CacheState) : CacheOp → Option CacheEvent
  | .render q => q.event? s.journal (q.render s).journal
  | .renderText q d => q.event? s.journal (q.renderText d s).journal
  | .releaseComponent component => some (.emptied (·.component == component))
  | .releaseTemplater templater => some (.emptied (·.templater == templater))
  | .clear => some (.emptied fun _ => true)
  | .elsewhere _ => none

namespace CacheState

/-- A cache that begins empty. What was called before does not matter to it. -/
def fresh (journal : Journal) : CacheState := ⟨.empty, journal⟩

/-- The operations, one after the other. -/
def run (s : CacheState) (ops : List CacheOp) : CacheState := ops.foldl CacheOp.apply s

/-- The events of a run, latest first. -/
def events : CacheState → List CacheOp → List CacheEvent
  | _, [] => []
  | s, op :: rest => events (op.apply s) rest ++ (op.event? s).toList

end CacheState

/-! ## The cache tracks its history -/

theorem CacheRequest.render_of_not_due {q : CacheRequest} {s : CacheState}
    (h : q.due s.memo.get? = false) :
    q.render s = ⟨s.memo, s.journal, q.inst,
      .ok ⟨false, if q.template.run?.isSome then s.memo.get? q.key else none⟩⟩ := by
  unfold due at h
  unfold render Memo.render
  rcases hrun : q.template.run? with - | run
  · rfl
  · rw [hrun, Option.isSome_some, Bool.true_and, Bool.or_eq_false_iff] at h
    have hfresh : Memo.isFresh q.template.mask q.reason = true := by
      rw [Memo.isFresh, ← Bool.not_not (b := q.template.mask.isNever), ← Bool.not_and, h.2]
      rfl
    rcases hslot : s.memo.get? q.key with - | held
    · rw [hslot] at h
      cases h.1
    · have hget : s.memo.get? ⟨q.templater, q.inst.id, q.template.id⟩ = some held := hslot
      simp only [hget, Option.filter_some, hfresh, if_true, Option.isSome_some]

theorem CacheRequest.render_of_due {q : CacheRequest} {s : CacheState}
    (h : q.due s.memo.get? = true) :
    ∃ outcome, q.outcome? s.journal = some outcome ∧
      let journal := s.journal.record q.template.id q.call
      let inst := { q.inst with ownAttributes := outcome.ownAttributes }
      q.render s = match outcome.result with
        | .ok result => ⟨s.memo.insert q.key result, journal, inst, .ok ⟨true, some result⟩⟩
        | .error cause => ⟨s.memo, journal, inst, .error (.render q.template.id cause)⟩ := by
  unfold due at h
  unfold render Memo.render outcome?
  rcases hrun : q.template.run? with - | run
  · rw [hrun] at h
    cases h
  · refine ⟨_, rfl, ?_⟩
    rw [hrun, Option.isSome_some, Bool.true_and] at h
    -- a result that is kept, if there is one, is not fresh enough for the request
    have hunused : ((s.memo.get? q.key).filter fun _ =>
        Memo.isFresh q.template.mask q.reason) = none := by
      rcases hslot : s.memo.get? q.key with - | held
      · rfl
      · rw [hslot, Option.isNone_some, Bool.false_or] at h
        have hstale : Memo.isFresh q.template.mask q.reason = false := by
          rw [Memo.isFresh, ← Bool.not_not (b := q.template.mask.isNever), ← Bool.not_and, h]
          rfl
        rw [Option.filter_some, hstale]
        rfl
    unfold key at hunused
    dsimp only
    rw [hunused]
    rfl

/-- The cache holds what its history says. -/
structure Tracks (s : CacheState) (history : List CacheEvent) : Prop where
  keyed : s.memo.Keyed
  slot : s.memo.get? = slotOf history

theorem tracks_fresh (journal : Journal) : Tracks (.fresh journal) [] :=
  ⟨Memo.keyed_empty, rfl⟩

/-- A request leaves the cache as its event says, and also if there is none. -/
theorem Tracks.render {s : CacheState} {history : List CacheEvent} (h : Tracks s history)
    (q : CacheRequest) :
    Tracks ⟨(q.render s).memo, (q.render s).journal⟩
      ((q.event? s.journal (q.render s).journal).toList ++ history) := by
  unfold CacheRequest.event?
  rcases hdue : q.due s.memo.get? with - | -
  · rw [CacheRequest.render_of_not_due hdue]
    dsimp only
    rw [if_pos rfl]
    exact ⟨h.keyed, h.slot⟩
  · obtain ⟨outcome, houtcome, hrender⟩ := CacheRequest.render_of_due hdue
    dsimp only at hrender
    -- a call shows in the journal, which is how the event is told from no event
    have hcalls : (s.journal.record q.template.id q.call).calls.length ≠
        s.journal.calls.length := by
      simp [Journal.record]
    rcases hresult : outcome.result with cause | result <;> rw [hresult] at hrender <;>
      rw [hrender] <;> dsimp only <;> rw [if_neg hcalls, houtcome, Option.map_some, hresult]
    · exact ⟨h.keyed, h.slot⟩
    · refine ⟨Memo.keyed_insert h.keyed q.key result, ?_⟩
      funext key
      rw [Memo.get?_insert, h.slot]
      rfl

theorem tracks_releaseWhere {s : CacheState} {history : List CacheEvent} (h : Tracks s history)
    (p : CacheKey → Bool) :
    Tracks { s with memo := (s.memo.releaseWhere p).2 } (.emptied p :: history) := by
  refine ⟨Memo.keyed_releaseWhere h.keyed p, ?_⟩
  funext key
  rw [Memo.get?_releaseWhere, h.slot]
  rfl

/-- **Every operation preserves that the cache tracks its history.** -/
theorem tracks_apply {s : CacheState} {history : List CacheEvent} (h : Tracks s history)
    (op : CacheOp) : Tracks (op.apply s) ((op.event? s).toList ++ history) := by
  cases op with
  | render q => exact h.render q
  | renderText q d => exact h.render q
  | releaseComponent component => exact tracks_releaseWhere h _
  | releaseTemplater templater => exact tracks_releaseWhere h _
  | clear => exact ⟨Memo.keyed_empty, rfl⟩
  | elsewhere journal => exact ⟨h.keyed, h.slot⟩

theorem tracks_run {s : CacheState} {history : List CacheEvent} (h : Tracks s history)
    (ops : List CacheOp) : Tracks (s.run ops) (s.events ops ++ history) := by
  induction ops generalizing s history with
  | nil => exact h
  | cons op rest ih =>
      have hrest := ih (tracks_apply h op)
      rw [CacheState.events, List.append_assoc]
      exact hrest

/-! ## What the slots say about every call -/

/-- The text for a result. A slot with plain data may hold a result that has none. -/
def textAnswer (d : Deliveries) :
    Except RenderError (Memoized RenderResult) → Except RenderError (Memoized CoercedText)
  | .error e => .error e
  | .ok ⟨changed, none⟩ => .ok ⟨changed, none⟩
  | .ok ⟨changed, some result⟩ => match result.coerce d with
    | .ok text => .ok ⟨changed, some text⟩
    | .error kind => .error (.missingText kind)

/-- The cache behaves as one slot for each key. -/
structure Refines (s : CacheState) (slot : CacheKey → Option RenderResult) : Prop where
  get? : ∀ key, s.memo.get? key = slot key
  contains : ∀ key, s.memo.contains key = (slot key).isSome
  size : s.memo.size = {key | (slot key).isSome = true}.ncard
  isEmpty : s.memo.isEmpty = true ↔ ∀ key, slot key = none
  /-- The render function is called exactly if that is due. -/
  calls : ∀ q : CacheRequest, (q.render s).journal =
    if q.due slot then s.journal.record q.template.id q.call else s.journal
  /-- Without a call the slot answers, and nothing changes. -/
  reused : ∀ q : CacheRequest, q.due slot = false →
    (q.render s).answer = .ok ⟨false, if q.template.run?.isSome then slot q.key else none⟩ ∧
      (q.render s).memo = s.memo ∧ (q.render s).inst = q.inst
  /-- A call that succeeds answers, and fills the slot. -/
  computed : ∀ (q : CacheRequest) outcome result, q.due slot = true →
    q.outcome? s.journal = some outcome → outcome.result = .ok result →
      (q.render s).answer = .ok ⟨true, some result⟩ ∧ (q.render s).memo.get? q.key = some result
  /-- A call that fails changes no slot. -/
  failed : ∀ (q : CacheRequest) outcome cause, q.due slot = true →
    q.outcome? s.journal = some outcome → outcome.result = .error cause →
      (q.render s).answer = .error (.render q.template.id cause) ∧
        ∀ key, (q.render s).memo.get? key = slot key
  /-- No request changes the slot of another key. -/
  others : ∀ (q : CacheRequest) key, key ≠ q.key → (q.render s).memo.get? key = slot key
  /-- To ask for a text is to ask for the result and to take its text. -/
  text : ∀ (q : CacheRequest) d, (q.renderText d s).memo = (q.render s).memo ∧
    (q.renderText d s).journal = (q.render s).journal ∧
    (q.renderText d s).inst = (q.render s).inst ∧
    (q.renderText d s).answer = textAnswer d (q.render s).answer
  /-- To release an instance empties its slots, and tells how many there were. -/
  component : ∀ id, (s.memo.releaseComponent id).1 =
      {key | key.component = id ∧ (slot key).isSome = true}.ncard ∧
    ∀ key, (s.memo.releaseComponent id).2.get? key =
      if key.component = id then none else slot key
  /-- To release a namespace empties its slots, and tells how many there were. -/
  templater : ∀ id, (s.memo.releaseTemplater id).1 =
      {key | key.templater = id ∧ (slot key).isSome = true}.ncard ∧
    ∀ key, (s.memo.releaseTemplater id).2.get? key =
      if key.templater = id then none else slot key

theorem CacheRequest.answer_renderText (q : CacheRequest) (d : Deliveries) (s : CacheState) :
    (q.renderText d s).answer = textAnswer d (q.render s).answer := by
  unfold renderText Memo.renderText render
  dsimp only
  rcases (s.memo.render s.journal q.template q.reason q.inst q.templater).answer
    with e | ⟨changed, - | result⟩
  · rfl
  · rfl
  · rcases hc : result.coerce d with kind | text <;>
      simp [Memoized.mapM, textAnswer, hc, Except.map]

/-- What a release tells and leaves. -/
theorem Memo.release_spec {m : Memo} (h : m.Keyed) (p : CacheKey → Bool) :
    (m.releaseWhere p).1 = {key | p key = true ∧ (m.get? key).isSome = true}.ncard ∧
      ∀ key, (m.releaseWhere p).2.get? key = if p key = true then none else m.get? key :=
  ⟨m.length_filter_entries h p, m.get?_releaseWhere p⟩

theorem refines_of_tracks {s : CacheState} {history : List CacheEvent} (h : Tracks s history) :
    Refines s (slotOf history) := by
  -- the slots that the history tells are those of the cache
  rw [← h.slot]
  constructor
  case get? => exact fun _ => rfl
  case contains => exact fun _ => rfl
  case size => exact Memo.size_eq_ncard h.keyed
  case isEmpty => exact s.memo.isEmpty_iff
  case calls =>
      intro q
      rcases hdue : q.due s.memo.get? with - | -
      · rw [CacheRequest.render_of_not_due hdue]
        rfl
      · obtain ⟨outcome, -, hrender⟩ := CacheRequest.render_of_due hdue
        rw [hrender]
        rcases outcome.result with cause | result <;> rfl
  case reused =>
      intro q hdue
      rw [CacheRequest.render_of_not_due hdue]
      exact ⟨rfl, rfl, rfl⟩
  case computed =>
      intro q outcome result hdue houtcome hresult
      obtain ⟨outcome', houtcome', hrender⟩ := CacheRequest.render_of_due hdue
      obtain rfl := Option.some.inj (houtcome.symm.trans houtcome')
      dsimp only at hrender
      rw [hresult] at hrender
      rw [hrender]
      exact ⟨rfl, by rw [Memo.get?_insert, if_pos rfl]⟩
  case failed =>
      intro q outcome cause hdue houtcome hresult
      obtain ⟨outcome', houtcome', hrender⟩ := CacheRequest.render_of_due hdue
      obtain rfl := Option.some.inj (houtcome.symm.trans houtcome')
      dsimp only at hrender
      rw [hresult] at hrender
      rw [hrender]
      exact ⟨rfl, fun _ => rfl⟩
  case others =>
      intro q key hne
      rcases hdue : q.due s.memo.get? with - | -
      · rw [CacheRequest.render_of_not_due hdue]
      · obtain ⟨outcome, -, hrender⟩ := CacheRequest.render_of_due hdue
        rw [hrender]
        rcases outcome.result with cause | result
        · rfl
        · exact (Memo.get?_insert ..).trans (if_neg hne)
  case text => exact fun q d => ⟨rfl, rfl, rfl, q.answer_renderText d s⟩
  case component =>
      intro id
      have hrelease := Memo.release_spec h.keyed (·.component == id)
      simp only [beq_iff_eq] at hrelease
      exact hrelease
  case templater =>
      intro id
      have hrelease := Memo.release_spec h.keyed (·.templater == id)
      simp only [beq_iff_eq] at hrelease
      exact hrelease

/-! ## Templates without a render function -/

/-- No request of the operation can call a render function of the template. -/
def CacheOp.Silent (template : Nat) (op : CacheOp) : Prop :=
  ∀ q, op.request? = some q → q.template.id = template → q.template.run? = none

theorem CacheRequest.slotOf_event? {q : CacheRequest} {template : Nat}
    (h : q.template.id = template → q.template.run? = none) (before after : Journal)
    {history : List CacheEvent} {key : CacheKey} (hkey : key.template = template)
    (hslot : slotOf history key = none) :
    slotOf ((q.event? before after).toList ++ history) key = none := by
  unfold event?
  split
  · exact hslot
  · split
    · rename_i result hresult
      have hne : key ≠ q.key := by
        rintro rfl
        rw [outcome?, h hkey] at hresult
        cases hresult
      exact (if_neg hne).trans hslot
    · exact hslot

theorem slotOf_apply {op : CacheOp} {template : Nat} (h : op.Silent template) (s : CacheState)
    {history : List CacheEvent} {key : CacheKey} (hkey : key.template = template)
    (hslot : slotOf history key = none) :
    slotOf ((op.event? s).toList ++ history) key = none := by
  have hemptied : ∀ covers, slotOf (.emptied covers :: history) key = none := by
    intro covers
    rw [slotOf, hslot, ite_self]
  cases op with
  | render q => exact q.slotOf_event? (h q rfl) _ _ hkey hslot
  | renderText q d => exact q.slotOf_event? (h q rfl) _ _ hkey hslot
  | releaseComponent component => exact hemptied _
  | releaseTemplater templater => exact hemptied _
  | clear => exact hemptied _
  | elsewhere journal => exact hslot

theorem slotOf_events {ops : List CacheOp} {template : Nat} (h : ∀ op ∈ ops, op.Silent template)
    (s : CacheState) {history : List CacheEvent} {key : CacheKey} (hkey : key.template = template)
    (hslot : slotOf history key = none) : slotOf (s.events ops ++ history) key = none := by
  induction ops generalizing s history with
  | nil => exact hslot
  | cons op rest ih =>
      rw [CacheState.events, List.append_assoc]
      exact ih (fun op' h' => h op' (List.mem_cons_of_mem op h')) (op.apply s)
        (slotOf_apply (h op List.mem_cons_self) s hkey hslot)

/-! ## Every run -/

/--
**The cache refines one slot for each key.** After any run of operations on a cache that began
empty, every slot holds the result of the last computation for its key that succeeded since the slot
was last emptied; every call that can come next is answered accordingly; and a template that no
request has a render function for has only empty slots.
-/
theorem cache_refines_slots (journal : Journal) (ops : List CacheOp) :
    let s := (CacheState.fresh journal).run ops
    let slot := slotOf ((CacheState.fresh journal).events ops)
    Refines s slot ∧ ∀ template, (∀ op ∈ ops, op.Silent template) →
      ∀ key, key.template = template → slot key = none := by
  intro s slot
  constructor
  · have htracks := tracks_run (tracks_fresh journal) ops
    rw [List.append_nil] at htracks
    exact refines_of_tracks htracks
  · intro template hsilent key hkey
    have hnothing : slotOf [] key = none := rfl
    have hempty := slotOf_events hsilent (.fresh journal) hkey hnothing
    rwa [List.append_nil] at hempty

end CustomElements
