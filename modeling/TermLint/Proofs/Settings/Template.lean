/-
  TermLint.Proofs.Settings.Template

  The grammar of templates.  A template is a last text, or a text without an
  opening, a reference and a template after it; in the last text an opening may
  stand as long as nothing closes it.  Every text has exactly one reading as a
  template, and expansion fills in the references of that reading.  Since the
  reading is made before any variable is looked up, nothing in the value of a
  variable can become a reference.

  `Template.parts_text` ties the grammar to the cutting of a text into parts;
  `opening_in_append` says where an opening can stand in two texts put together,
  which is all that the laws about texts put together need.
-/

import Mathlib.Data.List.Infix
import Mathlib.Logic.ExistsUnique
import TermLint.Proofs.Text.Cut
import TermLint.Settings.Template

namespace TermLint.Settings

open Text (FirstCut cut?)

variable {environment : Environment} {a b name : List Char}

/-! ## Openings -/

/-- An opening in two texts put together stands in the first, or half in each, or in the second. -/
theorem opening_in_append {p s : List Char} (h : a ++ b = p ++ opening ++ s) :
    opening <:+: a ∨ (a.getLast? = some '$' ∧ b.head? = some '\x7b') ∨
      ∃ q, p = a ++ q ∧ b = q ++ opening ++ s := by
  rw [List.append_assoc] at h
  rcases List.append_eq_append_iff.mp h with ⟨q, hp, hb⟩ | ⟨q, ha, hq⟩
  · exact .inr (.inr ⟨q, hp, by rw [hb, List.append_assoc]⟩)
  · -- the opening begins in the first text, with as much of it there as `q` has
    match q with
    | [] =>
      refine .inr (.inr ⟨[], ?_, hq.symm⟩)
      rw [ha, List.append_nil, List.append_nil]
    | [x] =>
      obtain ⟨rfl, hmore⟩ := List.cons.inj hq
      have hlast : a.getLast? = some '$' := by rw [ha, List.getLast?_concat]
      have hhead : b.head? = some '\x7b' := (congrArg List.head? hmore).symm
      exact .inr (.inl ⟨hlast, hhead⟩)
    | x :: y :: q =>
      obtain ⟨rfl, hmore⟩ := List.cons.inj hq
      obtain ⟨rfl, -⟩ := List.cons.inj hmore
      refine .inl ⟨p, q, ?_⟩
      rw [ha, List.append_assoc]
      rfl

/-- Two texts without an opening have none when they are put together, unless it is half in each. -/
theorem not_opening_append (ha : ¬ opening <:+: a) (hb : ¬ opening <:+: b)
    (hjoin : ¬ (a.getLast? = some '$' ∧ b.head? = some '\x7b')) : ¬ opening <:+: a ++ b := by
  rintro ⟨p, s, h⟩
  rcases opening_in_append h.symm with hfirst | hacross | ⟨q, -, hsecond⟩
  · exact ha hfirst
  · exact hjoin hacross
  · exact hb ⟨q, s, hsecond.symm⟩

/-- A text without an opening may be put before a text without changing where its first opening
is. -/
theorem firstCut_append {before after : List Char} (ha : ¬ opening <:+: a)
    (hjoin : ¬ (a.getLast? = some '$' ∧ b.head? = some '\x7b'))
    (hb : FirstCut opening b before after) : FirstCut opening (a ++ b) (a ++ before) after := by
  refine ⟨by rw [hb.eq, List.append_assoc, List.append_assoc, List.append_assoc], ?_⟩
  intro p s h
  rcases opening_in_append h with hfirst | hacross | ⟨q, rfl, hsecond⟩
  · exact absurd hfirst ha
  · exact absurd hacross hjoin
  · have hle := hb.first q s hsecond
    rw [List.length_append, List.length_append]
    omega

theorem firstCut_opening (ha : ¬ opening <:+: a) (rest : List Char) :
    FirstCut opening (a ++ (opening ++ rest)) a rest := by
  have hstart : FirstCut opening (opening ++ rest) [] rest := ⟨rfl, fun _ _ _ => Nat.zero_le _⟩
  have hcut := firstCut_append ha (fun hjoin => by cases hjoin.2) hstart
  rwa [List.append_nil] at hcut

theorem exists_firstCut (h : opening <:+: a) : ∃ before after, FirstCut opening a before after := by
  obtain ⟨p, s, hps⟩ := h
  have hsome : (cut? opening a).isSome := Text.isSome_cutFrom hps.symm
  obtain ⟨⟨before, after⟩, hcut⟩ := Option.isSome_iff_exists.mp hsome
  exact ⟨before, after, Text.cut?_eq_some_iff.mp hcut⟩

/-! ## Templates -/

/-- A text as references with texts before, between and after them. -/
inductive Template where
  /-- The text after the last reference: nothing closes the first opening in it, if there is one. -/
  | last (text : List Char)
      (unclosed : ∀ before after, FirstCut opening text before after → '\x7d' ∉ after)
  /-- A text, a reference and what follows. -/
  | reference (text name : List Char) (rest : Template) (plain : ¬ opening <:+: text)
      (open_name : '\x7d' ∉ name)

/-- What a reference to a name stands for: for itself if the name is empty, and otherwise for the
value of the variable, or for nothing if the variable is not set. -/
def meaning (environment : Environment) (name : List Char) : List Char :=
  if name = [] then ['$', '\x7b', '\x7d']
  else
    match environment (String.ofList name) with
    | some value => value.toList
    | none => []

namespace Template

/-- The text that is read as a template. -/
def text : Template → List Char
  | .last text _ => text
  | .reference text name rest _ _ => text ++ (opening ++ (name ++ ending ++ rest.text))

/-- A template with its references filled in. -/
def filled (environment : Environment) : Template → List Char
  | .last text _ => text
  | .reference text name rest _ _ =>
    text ++ meaning environment name ++ rest.filled environment

/-- The parts of a template. -/
def parts : Template → List Part
  | .last text _ => [.plain text]
  | .reference text name rest _ _ => .plain text :: .reference name :: rest.parts

end Template

/-! ## Cutting a template into its parts -/

theorem parts_of_unclosed
    (h : ∀ before after, FirstCut opening a before after → '\x7d' ∉ after) :
    parts a = [.plain a] := by
  rw [parts]
  split
  · rfl
  · rename_i before inside hcut
    have hinside := h before inside (Text.cut?_eq_some_iff.mp hcut)
    split
    · rfl
    · rename_i name rest hclosed
      have hnone : cut? ending inside = none := Text.cut?_singleton_eq_none_iff.mpr hinside
      rw [hnone] at hclosed
      cases hclosed

theorem parts_of_reference (ha : ¬ opening <:+: a) (hname : '\x7d' ∉ name) (rest : List Char) :
    parts (a ++ (opening ++ (name ++ ending ++ rest))) =
      .plain a :: .reference name :: parts rest := by
  have hopen : cut? opening (a ++ (opening ++ (name ++ ending ++ rest))) =
      some (a, name ++ ending ++ rest) := Text.cut?_eq_some_iff.mpr (firstCut_opening ha _)
  have hclose : cut? ending (name ++ ending ++ rest) = some (name, rest) :=
    Text.cut?_append '\x7d' [] rest hname
  rw [parts]
  split
  · rename_i hnone
    rw [hopen] at hnone
    cases hnone
  · rename_i before inside hfound
    rw [hopen] at hfound
    cases hfound
    split
    · rename_i hnone
      rw [hclose] at hnone
      cases hnone
    · rename_i name' rest' hfound
      rw [hclose] at hfound
      cases hfound
      rfl

/-- The text of a template is cut into the parts of the template. -/
theorem Template.parts_text (template : Template) : Settings.parts template.text = template.parts := by
  induction template with
  | last text unclosed => exact parts_of_unclosed unclosed
  | reference text name rest plain open_name ih =>
    rw [Template.text, parts_of_reference plain open_name, ih]
    rfl

theorem Template.parts_injective {template other : Template}
    (h : template.parts = other.parts) : template = other := by
  induction template generalizing other with
  | last text unclosed =>
    cases other with
    | last text' unclosed' =>
      cases h
      rfl
    | reference text' name' rest' plain' open_name' => cases h
  | reference text name rest plain open_name ih =>
    cases other with
    | last text' unclosed' => cases h
    | reference text' name' rest' plain' open_name' =>
      simp only [parts, List.cons.injEq, Part.plain.injEq, Part.reference.injEq] at h
      obtain ⟨rfl, rfl, hrest⟩ := h
      rw [ih hrest]

/-- Every text can be read as a template. -/
theorem exists_template (s : List Char) : ∃ template : Template, template.text = s := by
  cases hopen : cut? opening s with
  | none =>
    refine ⟨.last s fun before after hcut => ?_, rfl⟩
    rw [Text.cut?_eq_some_iff.mpr hcut] at hopen
    cases hopen
  | some halves =>
    obtain ⟨before, inside⟩ := halves
    have hfirst := Text.cut?_eq_some_iff.mp hopen
    cases hclose : cut? ending inside with
    | none =>
      refine ⟨.last s fun before' after hcut => ?_, rfl⟩
      obtain ⟨-, rfl⟩ := hfirst.unique hcut
      exact Text.cut?_singleton_eq_none_iff.mp hclose
    | some halves =>
      obtain ⟨name, rest⟩ := halves
      have hname := Text.cut?_eq_some_iff.mp hclose
      -- the first opening and what closes it are the first reference; the rest is shorter
      have hlt : rest.length < s.length := by
        rw [hfirst.eq, hname.eq]
        simp only [List.length_append, ending, List.length_singleton]
        omega
      have hplain : ¬ opening <:+: before := by
        -- an opening before the first one would come sooner
        rintro ⟨p, q, rfl⟩
        have hle := hfirst.first p (q ++ opening ++ inside) (by rw [hfirst.eq]; simp)
        rw [List.length_append, List.length_append] at hle
        simp only [opening, List.length_cons] at hle
        omega
      obtain ⟨template, rfl⟩ := exists_template rest
      refine ⟨.reference before name template hplain hname.not_mem, ?_⟩
      rw [Template.text, hfirst.eq, hname.eq, List.append_assoc before]
termination_by s.length

/-- Every text can be read as a template in exactly one way. -/
theorem existsUnique_template (s : List Char) : ∃! template : Template, template.text = s := by
  obtain ⟨template, rfl⟩ := exists_template s
  refine ⟨template, rfl, fun other hother => ?_⟩
  apply Template.parts_injective
  rw [← Template.parts_text, ← Template.parts_text, hother]

/-! ## Filling in -/

theorem fill_reference (name : List Char) :
    (Part.reference name).fill environment = meaning environment name := by
  cases name with
  | nil => rfl
  | cons c name =>
    rw [meaning, if_neg (List.cons_ne_nil c name)]
    show ((environment (String.ofList (c :: name))).getD "").toList = _
    cases environment (String.ofList (c :: name)) with
    | none => rfl
    | some value => rfl

theorem flatMap_fill_parts (template : Template) :
    template.parts.flatMap (Part.fill environment) = template.filled environment := by
  induction template with
  | last text unclosed => exact List.append_nil text
  | reference text name rest plain open_name ih =>
    rw [Template.parts, List.flatMap_cons, List.flatMap_cons, ih, fill_reference,
      Template.filled, List.append_assoc]
    rfl

/-- Expansion fills in the references of a template. -/
theorem expand_text (environment : Environment) (template : Template) :
    expand environment (String.ofList template.text) =
      String.ofList (template.filled environment) := by
  rw [expand, String.toList_ofList, Template.parts_text, flatMap_fill_parts]

/-! ## Texts put together -/

/-- Every opening in a text is closed somewhere after it. -/
def Terminated (s : List Char) : Prop :=
  ∀ before after, s = before ++ opening ++ after → '\x7d' ∈ after

theorem terminated_iff (s : List Char) :
    Terminated s ↔ ∀ t ∈ s.tails, opening <+: t → '\x7d' ∈ t.drop opening.length := by
  constructor
  · rintro h t hmem ⟨after, rfl⟩
    obtain ⟨before, rfl⟩ := (List.mem_tails _ _).mp hmem
    rw [List.drop_left]
    exact h before after (List.append_assoc _ _ _).symm
  · rintro h before after rfl
    have hmem : opening ++ after ∈ (before ++ opening ++ after).tails := by
      rw [List.mem_tails, List.append_assoc]
      exact List.suffix_append _ _
    have hafter := h _ hmem (List.prefix_append _ _)
    rwa [List.drop_left] at hafter

instance (s : List Char) : Decidable (Terminated s) :=
  decidable_of_iff' _ (terminated_iff s)

/-- A text that comes after something else in a terminated text is terminated. -/
theorem Terminated.right (h : Terminated (a ++ b)) : Terminated b := by
  intro before after hb
  apply h (a ++ before) after
  rw [hb, List.append_assoc, List.append_assoc, List.append_assoc]

theorem Terminated.not_opening (h : Terminated a)
    (hunclosed : ∀ before after, FirstCut opening a before after → '\x7d' ∉ after) :
    ¬ opening <:+: a := by
  intro hopening
  obtain ⟨before, after, hcut⟩ := exists_firstCut hopening
  exact hunclosed before after hcut (h before after hcut.eq)

/-- A template whose openings are all closed can be continued with any other, unless an opening comes
about where they meet. -/
theorem exists_append (environment : Environment) (template other : Template)
    (hterminated : Terminated template.text)
    (hjoin : ¬ (template.text.getLast? = some '$' ∧ other.text.head? = some '\x7b')) :
    ∃ whole : Template, whole.text = template.text ++ other.text ∧
      whole.filled environment = template.filled environment ++ other.filled environment := by
  induction template with
  | last text unclosed =>
    have hplain : ¬ opening <:+: text := hterminated.not_opening unclosed
    cases other with
    | last text' unclosed' =>
      refine ⟨.last (text ++ text') fun before after hcut => ?_, rfl, rfl⟩
      -- the first opening of the whole is that of the second text
      have hopening : opening <:+: text' := by
        refine not_not.mp fun hplain' => ?_
        have hnone := not_opening_append hplain hplain' hjoin
        exact hnone ⟨before, after, hcut.eq.symm⟩
      obtain ⟨before', after', hcut'⟩ := exists_firstCut hopening
      obtain ⟨-, rfl⟩ := hcut.unique (firstCut_append hplain hjoin hcut')
      exact unclosed' before' after hcut'
    | reference text' name' rest' plain' open_name' =>
      -- the two texts that meet become one text before the first reference of the second template
      have hjoin' : ¬ (text.getLast? = some '$' ∧ text'.head? = some '\x7b') := by
        rintro ⟨hlast, hhead⟩
        refine hjoin ⟨hlast, ?_⟩
        rw [Template.text, List.head?_append, hhead]
        rfl
      refine ⟨.reference (text ++ text') name' rest' (not_opening_append hplain plain' hjoin')
        open_name', ?_, ?_⟩
      · simp only [Template.text, List.append_assoc]
      · simp only [Template.filled, List.append_assoc]
  | reference text name rest plain open_name ih =>
    -- the references of the first template stay as they are; only its last text is continued
    have hsplit : (Template.reference text name rest plain open_name).text =
        (text ++ opening ++ name ++ ending) ++ rest.text := by
      simp only [Template.text, List.append_assoc]
    rw [hsplit] at hterminated hjoin
    obtain ⟨whole, htext, hfilled⟩ := ih hterminated.right fun hrest =>
      hjoin ⟨List.mem_getLast?_append_of_mem_getLast? hrest.1, hrest.2⟩
    refine ⟨.reference text name whole plain open_name, ?_, ?_⟩
    · simp only [Template.text, htext, List.append_assoc]
    · simp only [Template.filled, hfilled, List.append_assoc]

/-- Expanding a text without an opening changes nothing. -/
theorem expand_of_plain {value : String} (h : ¬ opening <:+: value.toList) :
    expand environment value = value := by
  have hunclosed : ∀ before after, FirstCut opening value.toList before after → '\x7d' ∉ after :=
    fun before after hcut => absurd ⟨before, after, hcut.eq.symm⟩ h
  have hexpand := expand_text environment (.last value.toList hunclosed)
  rwa [Template.text, Template.filled, String.ofList_toList] at hexpand

/-- Texts are expanded each on its own, unless an opening of the first is not closed or one comes
about where they meet. -/
theorem expand_append {value more : String} (hterminated : Terminated value.toList)
    (hjoin : ¬ (value.toList.getLast? = some '$' ∧ more.toList.head? = some '\x7b')) :
    expand environment (value ++ more) = expand environment value ++ expand environment more := by
  obtain ⟨template, htemplate⟩ := exists_template value.toList
  obtain ⟨other, hother⟩ := exists_template more.toList
  rw [← htemplate] at hterminated hjoin
  rw [← hother] at hjoin
  obtain ⟨whole, htext, hfilled⟩ := exists_append environment template other hterminated hjoin
  have hvalue : value = String.ofList template.text := by rw [htemplate, String.ofList_toList]
  have hmore : more = String.ofList other.text := by rw [hother, String.ofList_toList]
  rw [hvalue, hmore, ← String.ofList_append, ← htext, expand_text, expand_text, expand_text,
    hfilled, String.ofList_append]

/-- A reference is replaced by its meaning, whatever that looks like. -/
theorem expand_reference (hname : '\x7d' ∉ name) (more : String) :
    expand environment (String.ofList (opening ++ name ++ ending) ++ more) =
      String.ofList (meaning environment name) ++ expand environment more := by
  obtain ⟨template, htemplate⟩ := exists_template more.toList
  have hmore : more = String.ofList template.text := by rw [htemplate, String.ofList_toList]
  have hplain : ¬ opening <:+: [] := fun h => by cases List.infix_nil.mp h
  have htext : opening ++ name ++ ending ++ template.text =
      (Template.reference [] name template hplain hname).text := by
    simp only [Template.text, List.nil_append, List.append_assoc]
  rw [hmore, ← String.ofList_append, htext, expand_text, expand_text, ← String.ofList_append]
  rfl

/-- Only the variables that a text refers to matter, and not those that their values refer to. -/
theorem expand_congr {other : Environment} {value : String}
    (h : ∀ name ∈ referenced value, environment name = other name) :
    expand environment value = expand other value := by
  have hfill : ∀ part ∈ parts value.toList, part.fill environment = part.fill other := by
    intro part hmem
    cases part with
    | plain text => rfl
    | reference name =>
      have hname := h (String.ofList name) (List.mem_filterMap.mpr ⟨_, hmem, rfl⟩)
      rw [fill_reference, fill_reference, meaning, meaning, hname]
  rw [expand, expand, List.flatMap_def, List.flatMap_def, List.map_congr_left hfill]

/-! ## The grammar and its consequences -/

/-- Templates and their expansion.  Every text can be read as a template in exactly one way, and is
expanded by filling in the references of that reading.  So a reference is replaced by its meaning as
it stands, and only the variables that the text itself refers to matter; a text without an opening
is left as it is; and texts put together are expanded each on its own, if every opening of the first
is closed and none comes about where they meet. -/
theorem expand_template (environment : Environment) :
    (∀ value : String, ∃! template : Template, template.text = value.toList) ∧
    (∀ template : Template, expand environment (String.ofList template.text) =
      String.ofList (template.filled environment)) ∧
    (∀ (value more : String) (name : List Char), Terminated value.toList → '\x7d' ∉ name →
      expand environment (value ++ (String.ofList (opening ++ name ++ ending) ++ more)) =
        expand environment value ++
          (String.ofList (meaning environment name) ++ expand environment more)) ∧
    (∀ (other : Environment) (value : String),
      (∀ name ∈ referenced value, environment name = other name) →
        expand environment value = expand other value) ∧
    (∀ value : String, ¬ opening <:+: value.toList → expand environment value = value) ∧
    ∀ value more : String, Terminated value.toList →
      ¬ (value.toList.getLast? = some '$' ∧ more.toList.head? = some '\x7b') →
      expand environment (value ++ more) =
        expand environment value ++ expand environment more := by
  refine ⟨fun value => existsUnique_template value.toList, expand_text environment, ?_,
    fun other value => expand_congr, fun value => expand_of_plain,
    fun value more => expand_append⟩
  intro value more name hterminated hname
  have hjoin : ¬ (value.toList.getLast? = some '$' ∧
      (String.ofList (opening ++ name ++ ending) ++ more).toList.head? = some '\x7b') := by
    rintro ⟨-, hhead⟩
    rw [String.toList_append, String.toList_ofList] at hhead
    cases hhead
  rw [expand_append hterminated hjoin, expand_reference hname]

/-- The value of a variable looks like a reference to another one, and stands between a reference
without a name, a dollar sign and a closing brace. -/
theorem expand_template_once :
    Terminated "$\x7b\x7d$".toList ∧ '\x7d' ∉ ['A'] ∧
      expand (Environment.ofEntries ["A=$\x7bB\x7d", "B=1"]) "$\x7b\x7d$$\x7bA\x7d\x7d" =
        "$\x7b\x7d$$\x7bB\x7d\x7d" := by
  have hterminated : Terminated "$\x7b\x7d$".toList := by decide
  have hname : '\x7d' ∉ ['A'] := by decide
  obtain ⟨-, -, hreference, -⟩ :=
    expand_template (Environment.ofEntries ["A=$\x7bB\x7d", "B=1"])
  refine ⟨hterminated, hname, (hreference "$\x7b\x7d$" "\x7d" ['A'] hterminated hname).trans ?_⟩
  decide +kernel

end TermLint.Settings
