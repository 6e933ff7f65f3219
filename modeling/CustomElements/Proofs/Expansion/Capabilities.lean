import CustomElements.Proofs.Expansion.Lockstep
import CustomElements.Proofs.Session.SharedSheets

/-!
# What components may not see

The theme and the language are handed down through a whole expansion, to components that may see
them and to components that may not. What a component may see is decided in one place, when its
instance is created. So if none of the components that a call may expand is allowed to see the
theme, two calls with different themes create the same instances, and from there on they cannot be
told apart: not by what they answer, nor by the session they leave, nor by the calls that render
functions got. The same is true of the language.
-/

namespace CustomElements

/-! ## Instances -/

namespace Instance

variable {interface : Interface}

theorem create_theme (h : interface.capabilities.theme = false) (id definition : Nat)
    (tagName : String) (attributes : Props) (theme theme' : Option Theme) (lang : String) :
    create id definition interface tagName attributes theme' lang =
      create id definition interface tagName attributes theme lang := by
  simp [create, h]

theorem create_lang (h : interface.capabilities.i18n = false) (id definition : Nat)
    (tagName : String) (attributes : Props) (theme : Option Theme) (lang lang' : String) :
    create id definition interface tagName attributes theme lang' =
      create id definition interface tagName attributes theme lang := by
  simp [create, visibleProps, h]

end Instance

/-! ## Calls -/

namespace Renderer

/-- The renderer with another language. -/
def withLang (r : Renderer) (lang : String) : Renderer :=
  { r with options := { r.options with lang } }

section Congr

variable {r r' : Renderer} {c : Catalog} {d : Deliveries} {theme theme' : Option Theme}
  {definition : Definition} {p : Progress}

/-- Calls in which all components have the same parts are the same. -/
theorem elementToTag_congr
    (hanonymous : r'.options.anonymousTagPrefix = r.options.anonymousTagPrefix)
    (hstyles : r'.options.emitStyles = r.options.emitStyles) (depth : Nat) (attributes : Props)
    (hparts : ∀ nested, p.MayExpand c definition nested → ∀ tagName attributes content content' p',
      (r'.begin d theme' nested tagName attributes content' p').parts =
        (r.begin d theme nested tagName attributes content p').parts) :
    r'.elementToTag c d depth definition attributes theme' p =
      r.elementToTag c d depth definition attributes theme p := by
  obtain ⟨hanswer, hprogress⟩ := elementToTag_same (resemblance_eq hstyles) hanonymous c depth
    attributes (.inl rfl) (fun hx => .inr ⟨_, hx⟩) hparts
  exact Prod.ext (agree_eq_iff.mp hanswer).symm hprogress

/-- Where nobody may see the theme, a call does not depend on it. -/
theorem elementToTag_theme (depth : Nat) (attributes : Props) (theme theme' : Option Theme)
    (h : ∀ x, p.MayExpand c definition x → x.interface.capabilities.theme = false) :
    r.elementToTag c d depth definition attributes theme' p =
      r.elementToTag c d depth definition attributes theme p := by
  refine elementToTag_congr rfl rfl depth attributes ?_
  intro nested hnested tagName attributes content content' p'
  have hinst := Instance.create_theme (h nested hnested) p'.journal.instances nested.id tagName
    attributes theme theme' r.options.lang
  simp only [begin, start, Occurrence.parts, hinst]

/-- Where nobody may see the language, a call does not depend on it. -/
theorem elementToTag_lang (depth : Nat) (attributes : Props) (theme : Option Theme)
    (lang lang' : String)
    (h : ∀ x, p.MayExpand c definition x → x.interface.capabilities.i18n = false) :
    (r.withLang lang').elementToTag c d depth definition attributes theme p =
      (r.withLang lang).elementToTag c d depth definition attributes theme p := by
  have hanonymous : (r.withLang lang').options.anonymousTagPrefix =
    (r.withLang lang).options.anonymousTagPrefix := rfl
  refine elementToTag_congr hanonymous rfl depth attributes ?_
  intro nested hnested tagName attributes content content' p'
  have hinst := Instance.create_lang (h nested hnested) p'.journal.instances nested.id tagName
    attributes theme lang lang'
  simp only [begin, start, withLang, Occurrence.parts, hinst]
  -- neither the markup nor the stylesheets are rendered with the language
  rfl

end Congr

/--
**Capabilities decide what can be seen.** If none of the definitions that a call may expand has the
capability to see the theme, the call answers the same and leaves the same state with any two
themes, or with none; and likewise for the language. Render functions may do what they like with
the instance, the reason and their earlier calls.
-/
theorem elementToTag_of_capabilities (r : Renderer) (c : Catalog) (d : Deliveries) (depth : Nat)
    (definition : Definition) (attributes : Props) (p : Progress) :
    ((∀ x, p.MayExpand c definition x → x.interface.capabilities.theme = false) →
        ∀ theme theme', r.elementToTag c d depth definition attributes theme' p =
          r.elementToTag c d depth definition attributes theme p) ∧
      ((∀ x, p.MayExpand c definition x → x.interface.capabilities.i18n = false) →
        ∀ theme lang lang',
          (r.withLang lang').elementToTag c d depth definition attributes theme p =
            (r.withLang lang).elementToTag c d depth definition attributes theme p) :=
  ⟨fun h theme theme' => elementToTag_theme depth attributes theme theme' h,
    fun h theme lang lang' => elementToTag_lang depth attributes theme lang lang' h⟩

end Renderer

/-! ## A sign that shows what it sees -/

namespace Sample

/-- Shows the name of its theme and its language, if it sees them. -/
def sign (capabilities : Capabilities) : Definition :=
  { component 0 "x-sign" (fun _ call => ⟨call.inst.ownAttributes, .ok (.display
        ((call.inst.theme.bind Theme.name).getD "" ++
          ((call.inst.props.get? "lang").map attributeText).getD "-"))⟩) [] with
    interface := ⟨[], capabilities⟩ }

/-- A board with a sign on it. -/
def board : Definition := component 1 "x-board" (.ofString "<x-sign></x-sign>") []

def boards (capabilities : Capabilities) : Catalog :=
  ⟨[⟨sign capabilities, none⟩, ⟨board, some [0]⟩]⟩

/-- The markup of the board in a new session. -/
def boardHtml (capabilities : Capabilities) (theme : Option Theme) (lang : String) :
    Option String :=
  (((reader.withLang lang).elementToTag (boards capabilities) Deliveries.none 2 board ∅ theme
    fresh).1.toOption).map Node.toHtml

end Sample

open Sample in
/-- A sign without capabilities shows nothing, whatever the theme and the language are. -/
theorem elementToTag_board :
    (∀ x, fresh.MayExpand (boards .none) board x → x.interface.capabilities.theme = false) ∧
      (∀ x, fresh.MayExpand (boards .none) board x → x.interface.capabilities.i18n = false) ∧
      boardHtml .none none "en" = some "<x-board><x-sign>-</x-sign></x-board>" ∧
      (∀ theme theme', reader.elementToTag (boards .none) Deliveries.none 2 board ∅ theme' fresh =
        reader.elementToTag (boards .none) Deliveries.none 2 board ∅ theme fresh) ∧
      ∀ theme lang lang',
        (reader.withLang lang').elementToTag (boards .none) Deliveries.none 2 board ∅ theme fresh =
          (reader.withLang lang).elementToTag (boards .none) Deliveries.none 2 board ∅ theme
            fresh := by
  have htheme : ∀ x, fresh.MayExpand (boards .none) board x →
      x.interface.capabilities.theme = false := Progress.forall_mayExpand rfl (by decide)
  have hlang : ∀ x, fresh.MayExpand (boards .none) board x →
      x.interface.capabilities.i18n = false := Progress.forall_mayExpand rfl (by decide)
  obtain ⟨hsame, hsame'⟩ :=
    reader.elementToTag_of_capabilities (boards .none) .none 2 board ∅ fresh
  exact ⟨htheme, hlang, by decide +kernel, hsame htheme, hsame' hlang⟩

open Sample in
/-- With the capabilities it shows both. -/
example : boardHtml ⟨true, true, false⟩ (some (.named "dark")) "de" =
    some "<x-board><x-sign>darkde</x-sign></x-board>" := by
  decide +kernel

end CustomElements
