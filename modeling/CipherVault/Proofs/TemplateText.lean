import CipherVault.Proofs.Template
/-!
# The texts that are templates

A text is a template exactly if it is written as four segments in braces, none of them empty and
none with a brace inside.  A text can be written so in one way only, and rendering refuses just the
segments that scanning would not give back.
-/

namespace CipherVault.Template

/-- A text that can stand between braces: not empty and without a brace of its own. -/
def IsBare (s : String) : Prop :=
  s ≠ "" ∧ ∀ c ∈ s.toList, c ≠ '\x7b' ∧ c ≠ '\x7d'

instance (s : String) : Decidable (IsBare s) :=
  @instDecidableAnd _ _ inferInstance (List.decidableBAll _ _)

/-- Every segment, the tag included, can stand between braces. -/
structure HasBareSegments (tag : String) (template : Template) : Prop where
  tag : IsBare tag
  algorithm : IsBare template.algorithm
  keyAlias : IsBare template.keyAlias
  payload : IsBare template.payload

/-- The four segments in braces, whatever they hold. -/
def written (tag : String) (template : Template) : String :=
  "\x7b" ++ tag ++ "\x7d\x7b" ++ template.algorithm ++ "\x7d\x7b" ++ template.keyAlias ++
    "\x7d\x7b" ++ template.payload ++ "\x7d"

variable {tag text : String} {template : Template}

theorem isSegment_toList_iff {s : String} : isSegment s.toList = true ↔ IsBare s := by
  have hempty : s.toList = [] ↔ s = "" := by
    rw [← String.toList_inj]
    rfl
  simp only [isSegment_iff, IsBare, isBrace_eq_false_iff, ne_eq, hempty]

theorem isSegment_segments_iff :
    (∀ s ∈ segments tag template, isSegment s = true) ↔ HasBareSegments tag template := by
  constructor
  · intro h
    simp only [segments, List.forall_mem_cons, isSegment_toList_iff] at h
    obtain ⟨htag, halgorithm, hkeyAlias, hpayload, -⟩ := h
    exact ⟨htag, halgorithm, hkeyAlias, hpayload⟩
  · intro h
    simp only [segments, List.forall_mem_cons, isSegment_toList_iff]
    exact ⟨h.tag, h.algorithm, h.keyAlias, h.payload, by simp⟩

theorem toList_written (tag : String) (template : Template) :
    (written tag template).toList = (segments tag template).flatMap bracket := by
  simp [written, segments, bracket]

/-- Rendering writes the segments in braces if they can stand there, and nothing else. -/
theorem render_eq_ok_iff_written :
    render tag template = .ok text ↔
      text = written tag template ∧ HasBareSegments tag template := by
  rw [render_eq_ok_iff, isSegment_segments_iff, ← toList_written, String.toList_inj]

/-- What is written in braces is read off the text: the scanner finds the same segments. -/
theorem written_injective {tag' : String} {template' : Template}
    (h : HasBareSegments tag template) (h' : HasBareSegments tag' template')
    (heq : written tag template = written tag' template') : tag = tag' ∧ template = template' := by
  have hscanned := groups?_flatMap (isSegment_segments_iff.mpr h)
  have hscanned' := groups?_flatMap (isSegment_segments_iff.mpr h')
  rw [← toList_written] at hscanned hscanned'
  rw [heq, hscanned'] at hscanned
  have hsegments : segments tag' template' = segments tag template := Option.some.inj hscanned
  simp only [segments, List.cons.injEq, String.toList_inj, and_true] at hsegments
  obtain ⟨htag, halgorithm, hkeyAlias, hpayload⟩ := hsegments
  refine ⟨htag.symm, ?_⟩
  cases template
  cases template'
  rw [Template.mk.injEq]
  exact ⟨halgorithm.symm, hkeyAlias.symm, hpayload.symm⟩

/-- What stands in a segment. -/
def contentOf (tag : String) (template : Template) : TemplateSegment → String
  | .tag => tag
  | .algorithm => template.algorithm
  | .keyAlias => template.keyAlias
  | .payload => template.payload

/-- A refusal names a segment that cannot stand between braces, and shows what it holds. -/
theorem exists_of_render_eq_error {e : CipherError} (h : render tag template = .error e) :
    ∃ segment, e = .illegal (.templateSegment segment (contentOf tag template segment)) ∧
      ¬IsBare (contentOf tag template segment) := by
  rw [render] at h
  split at h
  · next segment value hbad =>
    cases h
    have hvalue : value = contentOf tag template segment := by
      have hmem := List.mem_of_find?_eq_some hbad
      simp only [List.mem_cons, Prod.mk.injEq, List.not_mem_nil, or_false] at hmem
      rcases hmem with ⟨rfl, rfl⟩ | ⟨rfl, rfl⟩ | ⟨rfl, rfl⟩ | ⟨rfl, rfl⟩ <;> rfl
    have hunfit : ¬IsBare value := by
      rw [← isSegment_toList_iff]
      simpa using List.find?_some hbad
    subst hvalue
    exact ⟨segment, rfl, hunfit⟩
  · cases h

theorem exists_render_eq_error_iff :
    (∃ e, render tag template = .error e) ↔ ¬HasBareSegments tag template := by
  cases hrender : render tag template with
  | ok text =>
    have hbare := (render_eq_ok_iff_written.mp hrender).2
    simp [hbare]
  | error e =>
    have hnot : ¬HasBareSegments tag template := by
      intro hbare
      rw [render_eq_ok_iff_written.mpr ⟨rfl, hbare⟩] at hrender
      cases hrender
    simp [hnot]

/-- Scanning accepts exactly what rendering produces: the texts of four segments in braces that are
neither empty nor hold a brace, with nothing before, between or behind them.  Such a text can be
written in one way only, under whatever tag, and rendering refuses just the segments that scanning
would not give back, naming one that is at fault. -/
theorem parse?_exactly_rendered :
    (∀ (tag text : String) (template : Template),
      parse? tag text = some template ↔ render tag template = .ok text) ∧
    (∀ tag text : String, (parse? tag text).isSome = true ↔
      ∃ template, text = written tag template ∧ HasBareSegments tag template) ∧
    (∀ (tag₁ tag₂ : String) (template₁ template₂ : Template),
      HasBareSegments tag₁ template₁ → HasBareSegments tag₂ template₂ →
      written tag₁ template₁ = written tag₂ template₂ → tag₁ = tag₂ ∧ template₁ = template₂) ∧
    ∀ (tag : String) (template : Template),
      ((∃ e, render tag template = .error e) ↔
        parse? tag (written tag template) ≠ some template) ∧
      ∀ e, render tag template = .error e →
        ∃ segment, e = .illegal (.templateSegment segment (contentOf tag template segment)) ∧
          ¬IsBare (contentOf tag template segment) := by
  refine ⟨fun _ _ _ => parse?_eq_some_iff_render, ?_, fun _ _ _ _ => written_injective, ?_⟩
  · intro tag text
    simp only [Option.isSome_iff_exists, parse?_eq_some_iff_render, render_eq_ok_iff_written]
  · intro tag template
    refine ⟨?_, fun _ => exists_of_render_eq_error⟩
    have hrecovered : parse? tag (written tag template) = some template ↔
        HasBareSegments tag template := by
      rw [parse?_eq_some_iff_render, render_eq_ok_iff_written]
      exact and_iff_right rfl
    rw [exists_render_eq_error_iff, ne_eq, hrecovered]

/-- A letter at the border of two segments belongs to one of them only.  An alias that looks like
two segments is refused, and the text with it gives back no template of that alias. -/
theorem parse?_at_segment_borders :
    written "v2c" ⟨"aes", "key", "AAE="⟩ ≠ written "v2c" ⟨"aesk", "ey", "AAE="⟩ ∧
      render "v2c" ⟨"aes", "k\x7d\x7bl", "AAE="⟩ =
        .error (.illegal (.templateSegment .keyAlias "k\x7d\x7bl")) ∧
      ¬IsBare "k\x7d\x7bl" ∧
      parse? "v2c" "{v2c}{aes}{k}{l}{AAE=}" ≠ some ⟨"aes", "k\x7d\x7bl", "AAE="⟩ := by
  obtain ⟨-, -, hinjective, hrefuses⟩ := parse?_exactly_rendered
  obtain ⟨hrecovers, hnames⟩ := hrefuses "v2c" ⟨"aes", "k\x7d\x7bl", "AAE="⟩
  refine ⟨?_, rfl, ?_, ?_⟩
  · intro heq
    have htemplate := (hinjective "v2c" "v2c" _ _ ⟨by decide, by decide, by decide, by decide⟩
      ⟨by decide, by decide, by decide, by decide⟩ heq).2
    exact absurd htemplate (by decide)
  · obtain ⟨segment, hsegment, hunfit⟩ := hnames _ rfl
    simp only [CipherError.illegal.injEq, ParameterFault.templateSegment.injEq] at hsegment
    obtain ⟨rfl, -⟩ := hsegment
    exact hunfit
  · have hwritten : written "v2c" ⟨"aes", "k\x7d\x7bl", "AAE="⟩ = "{v2c}{aes}{k}{l}{AAE=}" := by
      decide
    rw [← hwritten]
    exact hrecovers.mp ⟨_, rfl⟩

end CipherVault.Template
