import CustomElements.Markup.Reader.Grove

/-!
# How a grove grows where nothing is moved

The cells of a grove refer to one another by number, and a reader may move any of them. Where it
moves none, a grove only grows: a node is put at the end of the children of an open element, and
then what is inside it is put at the end of its own children. `Grows` says that a forest has grown
that way below a cell. Such a forest is what the new cells stand for, whatever grows elsewhere
later, and in a grove that has grown from the root alone it is all there is.
-/

namespace CustomElements.Markup.Grove

variable {g h : Grove} {p id : Nat} {content : Content}

/-- A new cell at the end of another one's children. -/
def attach (g : Grove) (parent : Nat) (content : Content) : Grove :=
  (g.add content).2.append parent g.cells.size

theorem cells_attach (hp : p < g.cells.size) : (g.attach p content).cells[id]? =
    if id = g.cells.size then some ⟨content, some p, []⟩
    else if id = p then
      (g.cells[id]?).map fun c => { c with children := g.cells.size :: c.children }
    else g.cells[id]? := by
  have hroot : (g.add content).2.detach g.cells.size = (g.add content).2 := by
    simp [detach, parent?, add]
  rw [attach, append, hroot]
  simp only [add, modify, Array.getElem?_modify, Array.getElem?_push]
  by_cases hid : id = g.cells.size
  · simp [hid, Nat.ne_of_lt hp]
  · by_cases hidp : id = p
    · simp [hidp, Nat.ne_of_lt hp, Ne.symm (Nat.ne_of_lt hp)]
    · simp [hid, hidp, Ne.symm hid, Ne.symm hidp]

theorem size_attach : (g.attach p content).cells.size = g.cells.size + 1 := by
  have hroot : (g.add content).2.detach g.cells.size = (g.add content).2 := by
    simp [detach, parent?, add]
  rw [attach, append, hroot]
  simp [add, modify]

theorem content?_attach (hp : p < g.cells.size) (hid : id < g.cells.size) :
    (g.attach p content).content? id = g.content? id := by
  rw [content?, content?, cells_attach hp, if_neg (Nat.ne_of_lt hid)]
  split
  · simp [Function.comp_def]
  · rfl

theorem children_attach (hp : p < g.cells.size) :
    (g.attach p content).children p = g.cells.size :: g.children p := by
  have hcell : g.cells[p]? = some g.cells[p] := Array.getElem?_eq_getElem hp
  rw [children, children, cells_attach hp, if_neg (Nat.ne_of_lt hp), if_pos rfl, hcell]
  rfl

theorem content?_attach_new (hp : p < g.cells.size) :
    (g.attach p content).content? g.cells.size = some content := by
  rw [content?, cells_attach hp, if_pos rfl]
  rfl

theorem children_attach_new (hp : p < g.cells.size) :
    (g.attach p content).children g.cells.size = [] := by
  rw [children, cells_attach hp, if_pos rfl]
  rfl

/-! ## Text -/

/-- The last child of the cell is text. -/
def endsInText (g : Grove) (p : Nat) : Bool :=
  match g.children p with
  | last :: _ => g.isText last
  | [] => false

theorem appendText_eq_attach {cs : List Char} (hlast : g.endsInText p = false) :
    g.appendText p cs = g.attach p (.text cs.reverse) := by
  cases hchildren : g.children p with
  | nil =>
      unfold appendText
      rw [hchildren]
      rfl
  | cons last rest =>
      have htext : g.isText last = false := by
        rw [endsInText, hchildren] at hlast
        exact hlast
      unfold appendText
      rw [hchildren]
      exact if_neg (Bool.eq_false_iff.mp htext)

theorem eq_of_cells {g h : Grove} (hcells : ∀ i : Nat, g.cells[i]? = h.cells[i]?) : g = h := by
  cases g
  cases h
  exact congrArg mk (Array.ext_getElem? hcells)

theorem extendText_extendText (cs ds : List Char) :
    (g.extendText id cs).extendText id ds = g.extendText id (cs ++ ds) := by
  refine eq_of_cells fun i => ?_
  simp only [extendText, modify, Array.getElem?_modify]
  split
  · rw [Option.map_map]
    congr 1
    funext c
    rcases c with ⟨_ | _ | _, _, _⟩ <;> simp
  · rfl

theorem extendText_attach (hp : p < g.cells.size) (cs ds : List Char) :
    (g.attach p (.text cs.reverse)).extendText g.cells.size ds =
      g.attach p (.text (cs ++ ds).reverse) := by
  refine eq_of_cells fun i => ?_
  rw [extendText, modify, Array.getElem?_modify, cells_attach hp, cells_attach hp]
  by_cases hi : i = g.cells.size
  · simp [hi]
  · simp [hi, Ne.symm hi]

theorem cells_extendText (cs : List Char) {i : Nat} : (g.extendText id cs).cells[i]? =
    (g.cells[i]?).map fun c => if id = i then
      match c.content with
      | .text reversed => { c with content := .text (cs.reverse ++ reversed) }
      | _ => c
    else c := by
  rw [extendText, modify, Array.getElem?_modify]
  by_cases hi : id = i
  · rw [if_pos hi]
    exact congrArg (fun f => (g.cells[i]?).map f) (funext fun c => (if_pos hi).symm)
  · rw [if_neg hi]
    refine Option.map_id'.symm.trans ?_
    exact congrArg (fun f => (g.cells[i]?).map f) (funext fun c => (if_neg hi).symm)

theorem children_extendText (cs : List Char) (i : Nat) :
    (g.extendText id cs).children i = g.children i := by
  rw [children, children, cells_extendText]
  rcases g.cells[i]? with - | ⟨_ | _ | _, _, _⟩ <;> by_cases hi : id = i <;> simp [hi]

theorem name_extendText (cs : List Char) (i : Nat) :
    (g.extendText id cs).name i = g.name i := by
  rw [name, name, content?, content?, cells_extendText]
  rcases g.cells[i]? with - | ⟨_ | _ | _, _, _⟩ <;> by_cases hi : id = i <;> simp [hi]

theorem isText_extendText (cs : List Char) (i : Nat) :
    (g.extendText id cs).isText i = g.isText i := by
  rw [isText, isText, content?, content?, cells_extendText]
  rcases g.cells[i]? with - | ⟨_ | _ | _, _, _⟩ <;> by_cases hi : id = i <;> simp [hi]

/-- Text that is put in two parts is one text. -/
theorem appendText_appendText (hp : p < g.cells.size) (cs ds : List Char) :
    (g.appendText p cs).appendText p ds = g.appendText p (cs ++ ds) := by
  cases hlast : g.endsInText p with
  | false =>
      rw [appendText_eq_attach hlast, appendText_eq_attach hlast, appendText, children_attach hp]
      simp only [isText, content?_attach_new hp, if_true, extendText_attach hp]
  | true =>
      unfold endsInText at hlast
      split at hlast
      case h_1 last rest heq =>
        simp only [appendText, heq, hlast, if_true, children_extendText, isText_extendText,
          extendText_extendText]
      case h_2 => exact absurd hlast (by simp)

theorem name_appendText (hp : p < g.cells.size) (cs : List Char) (hid : id < g.cells.size) :
    (g.appendText p cs).name id = g.name id := by
  cases hlast : g.endsInText p with
  | false => rw [appendText_eq_attach hlast, name, name, content?_attach hp hid]
  | true =>
      unfold endsInText at hlast
      split at hlast
      case h_1 last rest heq => simp only [appendText, heq, hlast, if_true, name_extendText]
      case h_2 => exact absurd hlast (by simp)

theorem size_le_appendText (cs : List Char) :
    g.cells.size ≤ (g.appendText p cs).cells.size := by
  cases hlast : g.endsInText p with
  | false => rw [appendText_eq_attach hlast, size_attach]; omega
  | true =>
      unfold endsInText at hlast
      split at hlast
      case h_1 last rest heq => simp [appendText, heq, hlast, extendText, modify]
      case h_2 => exact absurd hlast (by simp)

/-! ## Growing below a cell -/

/-- The forest has grown at the end of the children of the cell. -/
inductive Grows : Grove → (parent : Nat) → List Node → Grove → Prop where
  | nil {g : Grove} {p : Nat} : Grows g p [] g
  | text {g h : Grove} {p : Nat} {s : String} {rest : List Node} :
      Grows (g.attach p (.text s.toList.reverse)) p rest h → Grows g p (.text s :: rest) h
  /-- The new cell comes first, then its children below it, then the rest. -/
  | element {g inner h : Grove} {p : Nat} {name : ElementName}
      {attributes : List (String × String)} {tag : Tag} {children rest : List Node} :
      tag = { Tag.ofName name.name with attributes := .ofList attributes } →
      (name.isHtml "template" = true → children = []) →
      Grows (g.attach p (.element name attributes)) g.cells.size children inner →
      Grows inner p rest h → Grows g p (.element tag children :: rest) h

namespace Grows

variable {ns : List Node}

theorem size_le (hg : Grows g p ns h) : g.cells.size ≤ h.cells.size := by
  induction hg with
  | nil => exact Nat.le_refl _
  | text _ ih => rw [size_attach] at ih; omega
  | element _ _ _ _ ihchildren ihrest => rw [size_attach] at ihchildren; omega

/-- No cell but the one where the forest has grown is changed. -/
theorem cells_eq (hg : Grows g p ns h) (hp : p < g.cells.size) (hid : id < g.cells.size)
    (hne : id ≠ p) : h.cells[id]? = g.cells[id]? := by
  induction hg with
  | nil => rfl
  | @text g _ p s _ _ ih =>
      rw [ih (by rw [size_attach]; omega) (by rw [size_attach]; omega) hne, cells_attach hp,
        if_neg (Nat.ne_of_lt hid), if_neg hne]
  | @element g inner h p name attributes tag children rest htag htemplate hchildren hrest
      ihchildren ihrest =>
      have hsize := hchildren.size_le
      rw [size_attach] at hsize
      rw [ihrest (by omega) (by omega) hne, ihchildren (by rw [size_attach]; omega)
        (by rw [size_attach]; omega) (Nat.ne_of_lt hid), cells_attach hp,
        if_neg (Nat.ne_of_lt hid), if_neg hne]

/-- No cell holds something else than before. -/
theorem content?_eq (hg : Grows g p ns h) (hp : p < g.cells.size) (hid : id < g.cells.size) :
    h.content? id = g.content? id := by
  induction hg with
  | nil => rfl
  | text _ ih =>
      rw [ih (by rw [size_attach]; omega) (by rw [size_attach]; omega), content?_attach hp hid]
  | element _ _ hchildren _ ihchildren ihrest =>
      have hsize := hchildren.size_le
      rw [size_attach] at hsize
      rw [ihrest (by omega) (by omega), ihchildren (by rw [size_attach]; omega)
        (by rw [size_attach]; omega), content?_attach hp hid]

theorem name_eq (hg : Grows g p ns h) (hp : p < g.cells.size) (hid : id < g.cells.size) :
    h.name id = g.name id := by
  rw [name, name, hg.content?_eq hp hid]

end Grows

/-! ## What has grown -/

/--
The cells stand for the nodes. Their numbers grow downwards and along, from `least` on.
-/
inductive Shows (g : Grove) : (least : Nat) → List Nat → List Node → Prop where
  | nil {least : Nat} : Shows g least [] []
  | text {least id : Nat} {ids : List Nat} {s : String} {ns : List Node} :
      least ≤ id → g.content? id = some (.text s.toList.reverse) → Shows g (id + 1) ids ns →
      Shows g least (id :: ids) (.text s :: ns)
  | element {least id : Nat} {ids : List Nat} {name : ElementName}
      {attributes : List (String × String)} {tag : Tag} {children ns : List Node} :
      least ≤ id → g.content? id = some (.element name attributes) →
      tag = { Tag.ofName name.name with attributes := .ofList attributes } →
      (name.isHtml "template" = true → children = []) →
      Shows g (id + 1) (g.children id).reverse children → Shows g (id + 1) ids ns →
      Shows g least (id :: ids) (.element tag children :: ns)

theorem lt_of_content? (hc : g.content? id = some content) : id < g.cells.size := by
  rw [content?, Option.map_eq_some_iff] at hc
  obtain ⟨cell, hcell, -⟩ := hc
  exact (Array.getElem?_eq_some_iff.mp hcell).1

namespace Shows

variable {least : Nat} {ids : List Nat} {ns : List Node}

theorem anti {lower : Nat} (hs : Shows g least ids ns) (hle : lower ≤ least) :
    Shows g lower ids ns := by
  cases hs with
  | nil => exact .nil
  | text hid hcontent hrest => exact .text (Nat.le_trans hle hid) hcontent hrest
  | element hid hcontent htag htemplate hchildren hrest =>
      exact .element (Nat.le_trans hle hid) hcontent htag htemplate hchildren hrest

/-- Cells with smaller numbers may change. -/
theorem frame (hs : Shows g least ids ns)
    (hsame : ∀ id, least ≤ id → id < g.cells.size → h.cells[id]? = g.cells[id]?) :
    Shows h least ids ns := by
  induction hs with
  | nil => exact .nil
  | text hid hcontent hrest ih =>
      have hcell := hsame _ hid (lt_of_content? hcontent)
      refine .text hid ?_ (ih fun id hle => hsame id (by omega))
      rw [← hcontent, content?, content?, hcell]
  | element hid hcontent htag htemplate hchildren hrest ihchildren ihrest =>
      have hcell := hsame _ hid (lt_of_content? hcontent)
      refine .element hid ?_ htag htemplate ?_ (ihrest fun id hle => hsame id (by omega))
      · rw [← hcontent, content?, content?, hcell]
      · rw [children, hcell]
        exact ihchildren fun id hle => hsame id (by omega)

/-- Reading the cells back gives the nodes; the numbers bound how far it goes down and along. -/
theorem nodes_eq (hs : Shows g least ids ns) {fuel : Nat} (hfuel : g.cells.size < least + fuel) :
    g.nodes fuel ids = ns := by
  induction hs generalizing fuel with
  | nil => cases fuel <;> rfl
  | text hid hcontent hrest ih =>
      have hlt := lt_of_content? hcontent
      obtain ⟨fuel, rfl⟩ : ∃ n, fuel = n + 1 := ⟨fuel - 1, by omega⟩
      rw [nodes, hcontent, ih (by omega)]
      simp
  | element hid hcontent htag htemplate hchildren hrest ihchildren ihrest =>
      have hlt := lt_of_content? hcontent
      obtain ⟨fuel, rfl⟩ : ∃ n, fuel = n + 1 := ⟨fuel - 1, by omega⟩
      rw [nodes, hcontent, ihrest (by omega)]
      dsimp only
      rw [← htag, ihchildren (by omega)]
      split
      case isTrue htest => rw [htemplate htest]
      case isFalse => rfl

end Shows

/-- **What has grown below a cell is the forest**, in new cells behind the children it had. -/
theorem Grows.exists_shows {ns : List Node} (hg : Grows g p ns h) (hp : p < g.cells.size) :
    ∃ ids, h.children p = ids.reverse ++ g.children p ∧ Shows h g.cells.size ids ns := by
  induction hg with
  | nil => exact ⟨[], rfl, .nil⟩
  | @text g h p s rest hrest ih =>
      have hsize : (g.attach p (.text s.toList.reverse)).cells.size = _ := size_attach
      obtain ⟨ids, hids, hshows⟩ := ih (by omega)
      refine ⟨g.cells.size :: ids, ?_, .text (Nat.le_refl _) ?_ (hsize ▸ hshows)⟩
      · rw [hids, children_attach hp]
        simp
      · rw [hrest.content?_eq (by omega) (by omega), content?_attach_new hp]
  | @element g inner h p name attributes tag children rest htag htemplate hchildren hrest
      ihchildren ihrest =>
      have hsize : (g.attach p (.element name attributes)).cells.size = _ := size_attach
      have hinner := hchildren.size_le
      obtain ⟨below, hbelow, hbelowShows⟩ := ihchildren (by omega)
      obtain ⟨ids, hids, hshows⟩ := ihrest (by omega)
      -- the element itself is not the cell where the rest grows, nor is anything below it
      have hkept : ∀ id, g.cells.size ≤ id → id < inner.cells.size →
          h.cells[id]? = inner.cells[id]? := fun id hle hlt =>
        hrest.cells_eq (by omega) hlt (by omega)
      have hp' : inner.children p = g.cells.size :: g.children p := by
        rw [Grove.children, hchildren.cells_eq (by omega) (by omega) (by omega), ← Grove.children,
          children_attach hp]
      have hown : h.children g.cells.size = below.reverse := by
        rw [Grove.children, hkept _ (Nat.le_refl _) (by omega), ← Grove.children, hbelow,
          children_attach_new hp, List.append_nil]
      refine ⟨g.cells.size :: ids, ?_, .element (Nat.le_refl _) ?_ htag htemplate ?_
        (hshows.anti (by omega))⟩
      · rw [hids, hp']
        simp
      · rw [hrest.content?_eq (by omega) (by omega),
          hchildren.content?_eq (by omega) (by omega), content?_attach_new hp]
      · rw [hown, List.reverse_reverse]
        exact (hsize ▸ hbelowShows).frame fun id hle hlt => hkept id (by omega) hlt

/-- **A forest that has grown from the root alone is the forest of the grove.** -/
theorem Grows.forest_eq {ns : List Node} (hg : Grows seed 0 ns h) : h.forest = ns := by
  obtain ⟨ids, hids, hshows⟩ := hg.exists_shows (by decide)
  have hroot : seed.children 0 = [] := rfl
  rw [hroot, List.append_nil] at hids
  rw [forest, hids, List.reverse_reverse]
  exact hshows.nodes_eq (by omega)

end CustomElements.Markup.Grove
