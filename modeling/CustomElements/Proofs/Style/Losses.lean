import CustomElements.Proofs.Style.Printing
import CustomElements.Proofs.Style.Weight

/-!
# Reading loses weight only

Rules weigh no more, as the printer writes them, than the tokens they were read from
(`rulesWeight_le`). Where nothing is lost nothing was left out: no declaration, no name's escape and
no `@charset`.
-/

namespace CustomElements.Style

open Token (isPlainName)

/-! ## The weight of rules -/

/-- The weight of the text that tokens stand for. -/
def tokensWeight (ts : List Token) : Nat := weight (Token.textOf ts)

theorem tokensWeight_cons (t : Token) (ts : List Token) :
    tokensWeight (t :: ts) = weight t.text + tokensWeight ts := by
  rw [tokensWeight, Token.textOf, List.flatMap_cons, weight_append]
  rfl

theorem tokensWeight_append (ts us : List Token) :
    tokensWeight (ts ++ us) = tokensWeight ts + tokensWeight us := by
  rw [tokensWeight, Token.textOf, List.flatMap_append, weight_append]
  rfl

theorem tokensWeight_suffix {ts us : List Token} (h : us <:+ ts) :
    tokensWeight us ≤ tokensWeight ts := by
  obtain ⟨before, rfl⟩ := h
  rw [tokensWeight_append]
  exact Nat.le_add_left _ _

theorem tokensWeight_cut {stop : Token.Kind → Bool} {ts before after : List Token}
    (hcut : cut stop ts = (before, after)) :
    tokensWeight ts = tokensWeight before + tokensWeight after := by
  rw [← tokensWeight_append, ← cut_append stop ts, hcut]

/-- All characters are white space. -/
def Blank (cs : List Char) : Prop := ∀ c ∈ cs, Text.isBlank c = true

theorem blank_nil : Blank [] := fun _ hc => absurd hc List.not_mem_nil

/-- What trimming leaves stands between white space. -/
theorem exists_trim (cs : List Char) :
    ∃ before after, Blank before ∧ Blank after ∧ cs = before ++ (Text.trim cs ++ after) := by
  refine ⟨cs.takeWhile Text.isBlank, ((Text.trimStart cs).reverse.takeWhile Text.isBlank).reverse,
    fun c hc => List.mem_takeWhile_imp hc, fun c hc => ?_, ?_⟩
  · exact List.mem_takeWhile_imp (List.mem_reverse.mp hc)
  · rw [Text.trim, Text.trimEnd, ← List.reverse_append, List.takeWhile_append_dropWhile,
      List.reverse_reverse, Text.trimStart, List.takeWhile_append_dropWhile]

theorem weight_trim (cs : List Char) : weight (Text.trim cs) = weight cs := by
  obtain ⟨before, after, hbefore, hafter, hcs⟩ := exists_trim cs
  rw [hcs, weight_append, weight_append, ← hcs, weight_blank hbefore, weight_blank hafter]
  omega

theorem weight_trimmedText (ts : List Token) :
    weight (trimmedText ts).toList = tokensWeight ts := by
  rw [trimmedText, String.toList_ofList, weight_trim, tokensWeight]

/-- The weight of texts, one after the other. -/
def textsWeight : List String → Nat
  | [] => 0
  | s :: texts => weight s.toList + textsWeight texts

theorem textsWeight_append (texts others : List String) :
    textsWeight (texts ++ others) = textsWeight texts + textsWeight others := by
  induction texts with
  | nil => exact (Nat.zero_add _).symm
  | cons s texts ih => rw [List.cons_append, textsWeight, textsWeight, ih, Nat.add_assoc]

/-- The weight of a declaration as it is written in a rule. -/
def Declaration.weight (d : Declaration) : Nat := Style.weight d.render.toList

theorem Declaration.weight_eq (d : Declaration) :
    d.weight = Style.weight d.name.toList + 1 + Style.weight d.value.toList := by
  have hcolon : Style.weight [':'] = 1 := rfl
  have hblank : Style.weight [' '] = 0 := rfl
  have hsemi : Style.weight [';'] = 0 := rfl
  rw [Declaration.weight, Declaration.toList_render, weight_append, weight_cons, weight_cons ' ',
    weight_append]
  omega

/-- The weight of the texts of declarations. -/
def declarationsWeight (ds : List Declaration) : Nat :=
  textsWeight (ds.map Declaration.render)

theorem declarationsWeight_cons (d : Declaration) (ds : List Declaration) :
    declarationsWeight (d :: ds) = d.weight + declarationsWeight ds :=
  rfl

theorem declarationsWeight_append (ds es : List Declaration) :
    declarationsWeight (ds ++ es) = declarationsWeight ds + declarationsWeight es := by
  rw [declarationsWeight, List.map_append, textsWeight_append]
  rfl

/-- The weight of a rule as it is written in a sheet. -/
def Rule.weight (r : Rule) : Nat := Style.weight r.render.toList

/-- The weight of the texts of rules. -/
def rulesWeight (rules : List Rule) : Nat := textsWeight (rules.map Rule.render)

theorem rulesWeight_cons (r : Rule) (rules : List Rule) :
    rulesWeight (r :: rules) = r.weight + rulesWeight rules :=
  rfl

theorem weight_trail {sep : List Char} (hsep : weight sep = 0) (texts : List String) :
    weight (trail sep texts) = textsWeight texts := by
  induction texts with
  | nil => rfl
  | cons s texts ih =>
      rw [trail, List.flatMap_cons, ← trail, weight_append, weight_append, hsep, ih, textsWeight]
      omega

theorem weight_intercalate {sep : String} (hsep : weight sep.toList = 0) (texts : List String) :
    weight (sep.intercalate texts).toList = textsWeight texts := by
  cases texts with
  | nil => rfl
  | cons s texts =>
      rw [toList_intercalate_cons, weight_append, weight_trail hsep, textsWeight]

theorem weight_lead (s : String) : weight (lead s) = 0 := by
  rw [lead]
  split_ifs <;> rfl

theorem weight_inBraces (s : String) : weight (inBraces s) = weight s.toList := by
  have hblank : weight [' '] = 0 := rfl
  rw [inBraces]
  split_ifs with h
  · rw [h]
    rfl
  · rw [weight_cons, weight_append]
    omega

theorem weight_declarationsText (ds : List Declaration) :
    weight (declarationsText ds) = declarationsWeight ds := by
  cases ds with
  | nil => rfl
  | cons d ds =>
      have hblank : weight [' '] = 0 := rfl
      rw [declarationsText, weight_append, weight_trail hblank, declarationsWeight, hblank,
        Nat.add_zero]

theorem weight_statement (name preamble : String) :
    (Rule.verbatim name preamble none).weight =
      1 + weight name.toList + weight preamble.toList := by
  have hat : weight ['@'] = 1 := rfl
  have hsemi : weight [';'] = 0 := rfl
  rw [Rule.weight, toList_statement, weight_cons, weight_append, weight_append, weight_append,
    weight_lead]
  omega

theorem weight_verbatim (name preamble block : String) :
    (Rule.verbatim name preamble (some block)).weight =
      1 + weight name.toList + weight preamble.toList + 1 + weight block.toList := by
  have hat : weight ['@'] = 1 := rfl
  have hblank : weight [' '] = 0 := rfl
  have hopen : weight ['\x7b'] = 1 := rfl
  have hclose : weight ['\x7d'] = 0 := rfl
  rw [Rule.weight, toList_verbatim, weight_cons, weight_append, weight_append, weight_append,
    weight_lead, weight_cons ' ', weight_cons '\x7b', weight_append, weight_inBraces]
  omega

theorem weight_group (name preamble : String) (rules : List Rule) :
    (Rule.group name preamble rules).weight =
      1 + weight name.toList + weight preamble.toList + 1 + rulesWeight rules := by
  have hat : weight ['@'] = 1 := rfl
  have hblank : weight [' '] = 0 := rfl
  have hopen : weight ['\x7b'] = 1 := rfl
  have hend : weight [' ', '\x7d'] = 0 := rfl
  rw [Rule.weight, toList_group, weight_cons, weight_append, weight_append, weight_append,
    weight_lead, weight_cons ' ', weight_cons '\x7b', weight_cons ' ' (_ ++ _), weight_append,
    weight_intercalate (by rfl), ← rulesWeight]
  omega

theorem weight_style (texts : List String) (ds : List Declaration) :
    (Rule.style texts ds).weight =
      weight (", ".intercalate texts).toList + 1 + declarationsWeight ds := by
  have hblank : weight [' '] = 0 := rfl
  have hopen : weight ['\x7b'] = 1 := rfl
  have hclose : weight ['\x7d'] = 0 := rfl
  rw [Rule.weight, toList_style, weight_append, weight_cons ' ', weight_cons '\x7b', weight_append,
    weight_declarationsText]
  omega

/-! ## Reading loses weight only -/

theorem selectorTexts_cons {part : List Token} {parts : List (List Token)} {offset : Nat}
    {texts : List String} (h : selectorTexts offset (part :: parts) = .ok texts) :
    selectorText part ≠ "" ∧ ∃ others,
      selectorTexts offset parts = .ok others ∧ texts = selectorText part :: others := by
  rw [selectorTexts] at h
  split_ifs at h with htext
  split at h
  · rename_i others hothers
    cases h
    exact ⟨htext, others, selectorTexts_offset hothers offset, rfl⟩
  · cases h

theorem weight_selectorText_le (part : List Token) :
    weight (selectorText part).toList ≤ tokensWeight part := by
  rw [selectorText, weight_trimmedText]
  exact tokensWeight_suffix (List.dropWhile_suffix _)

/-- Selectors weigh no more than the tokens they are read from. -/
theorem weight_commaParts {fuel : Nat} {ts : List Token} {offset : Nat} {texts : List String}
    (hsound : ∀ t ∈ ts, t.Sound) (hfuel : ts.length ≤ fuel)
    (h : selectorTexts offset (commaParts fuel ts) = .ok texts) :
    texts ≠ [] ∧ weight (", ".intercalate texts).toList ≤ tokensWeight ts := by
  induction fuel generalizing ts texts with
  | zero =>
      rw [List.length_eq_zero_iff.mp (Nat.le_zero.mp hfuel)] at h
      exact absurd rfl (selectorTexts_cons h).1
  | succ fuel ih =>
      rw [commaParts] at h
      rcases hcut : cut (· == .comma) ts with ⟨part, - | ⟨comma, rest⟩⟩
      · rw [hcut] at h
        obtain ⟨-, others, hothers, rfl⟩ := selectorTexts_cons h
        cases hothers
        refine ⟨List.cons_ne_nil _ _, ?_⟩
        rw [tokensWeight_cut hcut]
        exact weight_selectorText_le part
      · rw [hcut] at h
        obtain ⟨-, others, hothers, rfl⟩ := selectorTexts_cons h
        have hts := cut_append (· == .comma) ts
        rw [hcut] at hts
        have hlen := length_cut hcut
        rw [List.length_cons] at hlen
        obtain ⟨hne, hweight⟩ := ih
          (fun t ht => hsound t (by rw [← hts]; exact List.mem_append_right _ (.tail _ ht)))
          (by omega) hothers
        have hkind : comma.kind = .comma := by simpa using (Passes.of_cutWithin hcut).2
        have hcomma : comma.text = [','] :=
          (hsound comma (by rw [← hts]; exact List.mem_append_right _ (.head _))).mark .comma hkind
        -- between the parts the comma stands, in the tokens and in the text
        refine ⟨List.cons_ne_nil _ _, ?_⟩
        cases others with
        | nil => exact absurd rfl hne
        | cons second others =>
            have hsep : weight ", ".toList = 1 := by decide
            have hone : weight [','] = 1 := rfl
            have hpart := weight_selectorText_le part
            rw [String.intercalate_cons_cons, String.toList_append, String.toList_append,
              weight_append, weight_append, hsep, tokensWeight_cut hcut, tokensWeight_cons, hcomma]
            omega

theorem declaration?_eq_some {name : List Char} {ts : List Token} {d : Declaration}
    (h : declaration? name ts = some d) : ∃ t rest, ts.dropWhile Token.isFiller = t :: rest ∧
      t.kind = .colon ∧ trimmedText rest ≠ "" ∧ d = ⟨String.ofList name, trimmedText rest⟩ := by
  unfold declaration? at h
  split at h
  · rename_i t rest hrest
    simp only at h
    split_ifs at h with hvalue
    cases h
    exact ⟨t, rest, hrest, hvalue.1, hvalue.2, rfl⟩
  · cases h

theorem suffix_afterAtRule (ts : List Token) : afterAtRule ts <:+ ts := by
  unfold afterAtRule
  rcases hcut : cut (fun k => k == .semicolon || k == .openCurly) ts with ⟨before, - | ⟨t, rest⟩⟩
  · exact List.nil_suffix
  · have hsuffix := (List.suffix_cons t rest).trans (suffix_of_cut hcut)
    simp only
    split_ifs
    · exact ((List.tail_suffix _).trans (suffix_of_cut rfl)).trans hsuffix
    · exact hsuffix

theorem declarations_ident (fuel : Nat) {t : Token} {name : List Char} (ht : t.kind = .ident name)
    (rest : List Token) : declarations (fuel + 1) (t :: rest) =
      (declaration? name (cut (· == .semicolon) rest).1).toList ++
        declarations fuel (cut (· == .semicolon) rest).2.tail := by
  rw [declarations, ht]

/-- Anything but a name is passed over, with something of what follows it. -/
theorem declarations_other (fuel : Nat) {t : Token} (ht : ∀ name, t.kind ≠ .ident name)
    (rest : List Token) : ∃ us, us <:+ rest ∧
      declarations (fuel + 1) (t :: rest) = declarations fuel us := by
  rw [declarations]
  split
  · exact ⟨rest, List.suffix_rfl, rfl⟩
  · exact ⟨rest, List.suffix_rfl, rfl⟩
  · exact ⟨rest, List.suffix_rfl, rfl⟩
  · exact ⟨_, suffix_afterAtRule rest, rfl⟩
  · rename_i name hname
    exact absurd hname (ht name)
  · refine ⟨_, ?_, rfl⟩
    have hsemi : (t.kind == .semicolon) = false := by simp_all
    rw [cut, cutWithin_cons, hsemi]
    exact (List.tail_suffix _).trans ⟨_, cutWithin_append _ _ rest⟩

theorem weight_declaration? {t : Token} {name : List Char} (ht : t.kind = .ident name)
    {body : List Token} (hsound : t.Sound) (hbody : ∀ u ∈ body, u.Sound) :
    declarationsWeight (declaration? name body).toList ≤ weight t.text + tokensWeight body ∧
    (weight t.text + tokensWeight body ≤ declarationsWeight (declaration? name body).toList →
      ∀ d ∈ declaration? name body, isPlainName d.name.toList = true ∨ d.name.toList = ['-']) := by
  cases h : declaration? name body with
  | none => exact ⟨Nat.zero_le _, fun _ d hd => by cases hd⟩
  | some d =>
      obtain ⟨c, value, hdrop, hc, -, rfl⟩ := declaration?_eq_some h
      have hsuffix : c :: value <:+ body := hdrop ▸ List.dropWhile_suffix _
      have hcolon : c.text = [':'] := (hbody c (hsuffix.subset (.head _))).colon hc
      have hone : weight [':'] = 1 := rfl
      have hle := tokensWeight_suffix hsuffix
      have hname := hsound.ident name ht
      rw [tokensWeight_cons, hcolon] at hle
      have hnone : declarationsWeight [] = 0 := rfl
      simp only [Option.toList, declarationsWeight_cons, hnone, Declaration.weight_eq,
        String.toList_ofList, weight_trimmedText]
      refine ⟨by omega, fun h d hd => ?_⟩
      cases hd
      rw [String.toList_ofList]
      exact hname.2 (by omega)

/--
Declarations weigh no more than the tokens they are read from, and if they weigh as much all their
names are written as they are.
-/
theorem weight_declarations (fuel : Nat) (ts : List Token) (hsound : ∀ t ∈ ts, t.Sound) :
    declarationsWeight (declarations fuel ts) ≤ tokensWeight ts ∧
    (tokensWeight ts ≤ declarationsWeight (declarations fuel ts) →
      ∀ d ∈ declarations fuel ts, isPlainName d.name.toList = true ∨ d.name.toList = ['-']) := by
  induction fuel generalizing ts with
  | zero => exact ⟨Nat.zero_le _, fun _ d hd => absurd hd List.not_mem_nil⟩
  | succ fuel ih =>
      cases ts with
      | nil => exact ⟨Nat.zero_le _, fun _ d hd => absurd hd List.not_mem_nil⟩
      | cons t rest =>
          rw [tokensWeight_cons]
          -- a declaration begins with a name; what begins otherwise is passed over
          by_cases ht : ∃ name, t.kind = .ident name
          · obtain ⟨name, ht⟩ := ht
            rw [declarations_ident fuel ht]
            rcases hcut : cut (· == .semicolon) rest with ⟨body, after⟩
            have hrest := cut_append (· == .semicolon) rest
            rw [hcut] at hrest
            have hbody : ∀ u ∈ body, u.Sound := fun u hu =>
              hsound u (.tail _ (hrest ▸ List.mem_append_left _ hu))
            have hafter : ∀ u ∈ after.tail, u.Sound := fun u hu =>
              hsound u (.tail _ (hrest ▸ List.mem_append_right _ (List.mem_of_mem_tail hu)))
            obtain ⟨hd, hdname⟩ := weight_declaration? ht (hsound t (.head _)) hbody
            obtain ⟨hds, hdsnames⟩ := ih after.tail hafter
            have htail := tokensWeight_suffix (List.tail_suffix after)
            rw [tokensWeight_cut hcut, declarationsWeight_append]
            refine ⟨by simp only; omega, fun h d hmem => ?_⟩
            simp only at h hmem
            rcases List.mem_append.mp hmem with hmem | hmem
            · exact hdname (by omega) d (Option.mem_toList.mp hmem)
            · exact hdsnames (by omega) d hmem
          · obtain ⟨us, hsuffix, hus⟩ := declarations_other fuel
              (fun name hname => ht ⟨name, hname⟩) rest
            have hle := tokensWeight_suffix hsuffix
            obtain ⟨hds, hdsnames⟩ := ih us fun u hu => hsound u (.tail _ (hsuffix.subset hu))
            rw [hus]
            exact ⟨by omega, fun h => hdsnames (by omega)⟩

section Parts

variable {stop : Token.Kind → Bool} {t u : Token} {ts rest preamble inside block after : List Token}

theorem sound_cut {before : List Token} (hcut : cut stop ts = (before, after))
    (hsound : ∀ t ∈ ts, t.Sound) : (∀ t ∈ before, t.Sound) ∧ ∀ t ∈ after, t.Sound := by
  have hts := cut_append stop ts
  rw [hcut] at hts
  rw [← hts] at hsound
  exact ⟨fun t ht => hsound t (List.mem_append_left _ ht),
    fun t ht => hsound t (List.mem_append_right _ ht)⟩

theorem sound_gap (hgap : ts.dropWhile Token.isGap = t :: rest) (hsound : ∀ t ∈ ts, t.Sound) :
    ∀ x ∈ t :: rest, x.Sound :=
  fun x hx => hsound x ((List.dropWhile_suffix Token.isGap).subset (by rw [hgap]; exact hx))

theorem tokensWeight_gap (hgap : ts.dropWhile Token.isGap = t :: rest) :
    weight t.text + tokensWeight rest ≤ tokensWeight ts := by
  rw [← tokensWeight_cons, ← hgap]
  exact tokensWeight_suffix (List.dropWhile_suffix _)

theorem weight_openCurly (hsound : u.Sound) (hu : u.kind = .openCurly) : weight u.text = 1 := by
  rw [hsound.mark .openCurly hu]
  rfl

theorem tokensWeight_tail (hcut : cut stop ts = (preamble, after)) :
    tokensWeight preamble + tokensWeight after.tail ≤ tokensWeight ts := by
  have := tokensWeight_suffix (List.tail_suffix after)
  rw [tokensWeight_cut hcut]
  omega

/-- The parts of tokens with a block: before it, in it and behind it. -/
theorem block_parts (hcut : cut stop ts = (preamble, u :: inside)) (hu : u.kind = .openCurly)
    (hblock : cutBlock inside = (block, after)) (hsound : ∀ t ∈ ts, t.Sound) :
    tokensWeight preamble + 1 + tokensWeight block + tokensWeight after.tail ≤ tokensWeight ts ∧
      (∀ t ∈ preamble, t.Sound) ∧ (∀ t ∈ block, t.Sound) ∧ ∀ t ∈ after.tail, t.Sound := by
  obtain ⟨hpreamble, hinside⟩ := sound_cut hcut hsound
  obtain ⟨hsblock, hafter⟩ := sound_cut hblock fun x hx => hinside x (.tail _ hx)
  refine ⟨?_, hpreamble, hsblock, fun x hx => hafter x (List.mem_of_mem_tail hx)⟩
  have := tokensWeight_tail hblock
  rw [tokensWeight_cut hcut, tokensWeight_cons, weight_openCurly (hinside _ (.head _)) hu]
  omega

variable {name : List Char}

/-- The parts of an at-rule without a block. -/
theorem atStatement_parts (hgap : ts.dropWhile Token.isGap = t :: rest)
    (ht : t.kind = .atKeyword name) (hcut : cut stop rest = (preamble, after))
    (hsound : ∀ t ∈ ts, t.Sound) :
    weight name + 1 ≤ weight t.text ∧
      weight t.text + tokensWeight preamble + tokensWeight after.tail ≤ tokensWeight ts ∧
      ∀ t ∈ after.tail, t.Sound := by
  have hparts := sound_gap hgap hsound
  obtain ⟨-, hafter⟩ := sound_cut hcut fun x hx => hparts x (.tail _ hx)
  have hle := tokensWeight_gap hgap
  have hrest := tokensWeight_tail hcut
  exact ⟨((hparts _ (.head _)).atKeyword _ ht).1, by omega,
    fun x hx => hafter x (List.mem_of_mem_tail hx)⟩

/-- The parts of an at-rule with a block. -/
theorem atBlock_parts (hgap : ts.dropWhile Token.isGap = t :: rest) (ht : t.kind = .atKeyword name)
    (hcut : cut stop rest = (preamble, u :: inside)) (hu : u.kind = .openCurly)
    (hblock : cutBlock inside = (block, after)) (hsound : ∀ t ∈ ts, t.Sound) :
    weight name + 1 ≤ weight t.text ∧
      weight t.text + tokensWeight preamble + 1 + tokensWeight block + tokensWeight after.tail ≤
        tokensWeight ts ∧
      (∀ t ∈ block, t.Sound) ∧ ∀ t ∈ after.tail, t.Sound := by
  have hparts := sound_gap hgap hsound
  obtain ⟨hrest, -, hsblock, hsafter⟩ :=
    block_parts hcut hu hblock fun x hx => hparts x (.tail _ hx)
  have hle := tokensWeight_gap hgap
  exact ⟨((hparts _ (.head _)).atKeyword _ ht).1, by omega, hsblock, hsafter⟩

/-- The parts of a style rule. -/
theorem style_parts (hgap : ts.dropWhile Token.isGap = t :: rest)
    (hcut : cut (· == .openCurly) (t :: rest) = (preamble, u :: inside))
    (hblock : cutBlock inside = (block, after)) (hsound : ∀ t ∈ ts, t.Sound) :
    tokensWeight preamble + 1 + tokensWeight block + tokensWeight after.tail ≤ tokensWeight ts ∧
      (∀ t ∈ preamble, t.Sound) ∧ (∀ t ∈ block, t.Sound) ∧ ∀ t ∈ after.tail, t.Sound := by
  have hu : u.kind = .openCurly := by simpa using (Passes.of_cutWithin hcut).2
  obtain ⟨hle, hparts⟩ := block_parts hcut hu hblock (sound_gap hgap hsound)
  have hgap := tokensWeight_gap hgap
  rw [tokensWeight_cons] at hle
  exact ⟨by omega, hparts⟩

end Parts

/-- Rules weigh no more than the tokens they are read from. -/
theorem rulesWeight_le {first : Bool} {ts : List Token} {rules : List Rule}
    (h : Reads first ts rules) (hsound : ∀ t ∈ ts, t.Sound) :
    rulesWeight rules ≤ tokensWeight ts := by
  -- each kind of rule is written with no more than the tokens of its parts
  induction h with
  | nil hgap => exact Nat.zero_le _
  | @charset _ rest _ _ _ hgap ht hname hrest ih =>
      have hparts := sound_gap hgap hsound
      have hsuffix := suffix_cutRule ht rest
      have h1 := ih fun x hx => hparts x (.tail _ (hsuffix.subset hx))
      have h2 := tokensWeight_suffix hsuffix
      have h3 := tokensWeight_gap hgap
      omega
  | statement hgap ht hname hcut hafter hrest ih =>
      obtain ⟨hkeyword, hle, hsafter⟩ := atStatement_parts hgap ht hcut hsound
      have hrules := ih hsafter
      rw [rulesWeight_cons, weight_statement, String.toList_ofList, weight_trimmedText]
      omega
  | verbatim hgap ht hname hcut hu hblock hgroup hrest ih =>
      obtain ⟨hkeyword, hle, -, hsafter⟩ := atBlock_parts hgap ht hcut hu hblock hsound
      have hrules := ih hsafter
      rw [rulesWeight_cons, weight_verbatim, String.toList_ofList, weight_trimmedText,
        weight_trimmedText]
      omega
  | group hgap ht hname hcut hu hblock hgroup hinner hrest ihinner ih =>
      obtain ⟨hkeyword, hle, hsblock, hsafter⟩ := atBlock_parts hgap ht hcut hu hblock hsound
      have hrules := ih hsafter
      have hinside := ihinner hsblock
      rw [rulesWeight_cons, weight_group, String.toList_ofList, weight_trimmedText]
      omega
  | @style _ _ _ _ _ block _ _ _ _ _ hgap ht hcut hblock htexts hrest ih =>
      obtain ⟨hle, hspreamble, hsblock, hsafter⟩ := style_parts hgap hcut hblock hsound
      have hrules := ih hsafter
      have hdeclarations := (weight_declarations block.length block hsblock).1
      obtain ⟨-, hselectors⟩ := weight_commaParts hspreamble (Nat.le_refl _) htexts
      rw [rulesWeight_cons, weight_style]
      omega

end CustomElements.Style
