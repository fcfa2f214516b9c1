import CipherVault.Proofs.Base64
import CipherVault.Result
/-!
# Templates are canonical

The scanner of templates accepts exactly the texts that rendering produces.  Together with the same
fact for base64 this makes a template the only text with its tag, algorithm, alias and payload.
-/

namespace CipherVault

namespace Template

/-- The contents of a group in its braces. -/
def bracket (cs : List Char) : List Char :=
  '\x7b' :: (cs ++ ['\x7d'])

/-- What was read of an open group. -/
def openedText : Option (List Char) → List Char
  | none => []
  | some content => '\x7b' :: content.reverse

theorem isBrace_eq_false_iff {c : Char} : isBrace c = false ↔ c ≠ '\x7b' ∧ c ≠ '\x7d' := by
  simp [isBrace]

theorem isSegment_iff {cs : List Char} :
    isSegment cs = true ↔ cs ≠ [] ∧ ∀ c ∈ cs, isBrace c = false := by
  simp [isSegment]

/-- Whatever the scanner accepts is a row of groups.  The invariant of the scan is that what was
read of the open group holds no brace. -/
theorem groups?_sound {opened : Option (List Char)} {cs : List Char} {gs : List (List Char)}
    (h : groups? opened cs = some gs)
    (hopened : ∀ content, opened = some content → ∀ c ∈ content, isBrace c = false) :
    openedText opened ++ cs = gs.flatMap bracket ∧ ∀ g ∈ gs, isSegment g = true := by
  fun_induction groups? opened cs generalizing gs with
  | case1 =>
    cases h
    simp [openedText]
  | case2 => cases h
  | case3 rest ih =>
    obtain ⟨hrest, hsegments⟩ := ih h (by simp)
    exact ⟨by simpa [openedText] using hrest, hsegments⟩
  | case4 => cases h
  | case5 => cases h
  | case6 => cases h
  | case7 content rest hempty _ ih =>
    obtain ⟨more, hmore, rfl⟩ := Option.map_eq_some_iff.mp h
    obtain ⟨hrest, hsegments⟩ := ih hmore (by simp)
    refine ⟨?_, ?_⟩
    · rw [List.flatMap_cons, ← hrest]
      simp [openedText, bracket]
    · rintro g (_ | ⟨_, hg⟩)
      · rw [isSegment_iff]
        refine ⟨by simpa using hempty, fun c hc => ?_⟩
        exact hopened content rfl c (List.mem_reverse.mp hc)
      · exact hsegments g hg
  | case8 content c rest hleft hright ih =>
    obtain ⟨hrest, hsegments⟩ := ih h (by
      rintro _ ⟨rfl⟩ d hd
      rcases List.mem_cons.mp hd with rfl | hd
      · exact isBrace_eq_false_iff.mpr ⟨hleft, hright⟩
      · exact hopened content rfl d hd)
    exact ⟨by simpa [openedText] using hrest, hsegments⟩

theorem groups?_append_of_noBrace {more : List Char} (content rest : List Char)
    (h : ∀ c ∈ more, isBrace c = false) :
    groups? (some content) (more ++ rest) = groups? (some (more.reverse ++ content)) rest := by
  induction more generalizing content with
  | nil => rfl
  | cons c more ih =>
    obtain ⟨hleft, hright⟩ := isBrace_eq_false_iff.mp (h c (by simp))
    rw [List.cons_append, groups?, if_neg hleft, if_neg hright,
      ih _ fun d hd => h d (List.mem_cons_of_mem c hd)]
    simp

theorem groups?_bracket_append {g : List Char} (h : isSegment g = true) (rest : List Char) :
    groups? none (bracket g ++ rest) = (groups? none rest).map (g :: ·) := by
  obtain ⟨hne, hnoBrace⟩ := isSegment_iff.mp h
  rw [bracket, List.cons_append, groups?, if_pos rfl, List.append_assoc,
    groups?_append_of_noBrace _ _ hnoBrace]
  simp [groups?, hne]

theorem groups?_flatMap {gs : List (List Char)} (h : ∀ g ∈ gs, isSegment g = true) :
    groups? none (gs.flatMap bracket) = some gs := by
  induction gs with
  | nil => rfl
  | cons g rest ih =>
    rw [List.flatMap_cons, groups?_bracket_append (h g (by simp)),
      ih fun g hg => h g (List.mem_cons_of_mem _ hg)]
    rfl

theorem groups?_eq_some_iff {cs : List Char} {gs : List (List Char)} :
    groups? none cs = some gs ↔ cs = gs.flatMap bracket ∧ ∀ g ∈ gs, isSegment g = true := by
  constructor
  · intro h
    simpa [openedText] using groups?_sound h (by simp)
  · intro h
    obtain ⟨rfl, h⟩ := h
    exact groups?_flatMap h

theorem badSegment?_eq_none_iff {segments : List (TemplateSegment × String)} :
    badSegment? segments = none ↔ ∀ s ∈ segments, isSegment s.2.toList = true := by
  simp [badSegment?]

/-- The four segments of a template, as the scanner finds them. -/
def segments (tag : String) (template : Template) : List (List Char) :=
  [tag.toList, template.algorithm.toList, template.keyAlias.toList, template.payload.toList]

theorem render_eq_ok_iff {tag text : String} {template : Template} :
    render tag template = .ok text ↔
      text.toList = (segments tag template).flatMap bracket ∧
        ∀ s ∈ segments tag template, isSegment s = true := by
  have hall : (∀ s ∈ segments tag template, isSegment s = true) ↔
      badSegment? [(.tag, tag), (.algorithm, template.algorithm),
        (.keyAlias, template.keyAlias), (.payload, template.payload)] = none := by
    rw [badSegment?_eq_none_iff]
    simp [segments]
  rw [render, hall]
  split
  · next hbad => simp [hbad]
  · next hgood =>
    rw [Except.ok.injEq, ← String.toList_inj, String.toList_ofList]
    simp [hgood, segments, bracket, group, eq_comm]

theorem parse?_eq_some_iff {tag text : String} {template : Template} :
    parse? tag text = some template ↔
      groups? none text.toList = some (segments tag template) := by
  rw [parse?]
  split
  · next found algorithm keyAlias payload hgroups =>
    rw [hgroups]
    constructor
    · intro h
      split at h
      · next htag =>
        cases h
        simp [segments, ← htag]
      · cases h
    · intro h
      simp only [segments, Option.some.injEq, List.cons.injEq, and_true] at h
      obtain ⟨rfl, rfl, rfl, rfl⟩ := h
      simp
  · next hgroups =>
    simp only [reduceCtorEq, false_iff]
    exact hgroups _ _ _ _

/-- Scanning undoes rendering, and only what rendering produces is accepted. -/
theorem parse?_eq_some_iff_render {tag text : String} {template : Template} :
    parse? tag text = some template ↔ render tag template = .ok text := by
  rw [parse?_eq_some_iff, groups?_eq_some_iff, render_eq_ok_iff]

end Template

namespace EncryptResult

/-- A result exports to a text exactly if the text is a template of its tag, algorithm and alias
whose payload is the base64 of its bytes. -/
theorem template_eq_ok_iff {result : EncryptResult} {text : String} :
    result.template = .ok text ↔
      ∃ keyAlias, result.keyAlias = some keyAlias ∧
        Template.parse? result.tag text =
          some ⟨result.algorithm, keyAlias, result.base64⟩ := by
  rw [template]
  split
  · next hnone => simp [hnone]
  · next keyAlias hsome => simp [hsome, Template.parse?_eq_some_iff_render]

/-- The form of results is canonical at the level of bytes: exporting is inverse to scanning and
decoding the payload, no second text carries the same tag, algorithm, alias and bytes, and what was
read from a template is exported as the identical text. -/
theorem template_canonical :
    (∀ (result : EncryptResult) (text : String),
      result.template = .ok text ↔
        ∃ keyAlias payload, result.keyAlias = some keyAlias ∧
          Template.parse? result.tag text = some ⟨result.algorithm, keyAlias, payload⟩ ∧
          Base64.decode payload = .ok result.bytes) ∧
    (∀ (tag text₁ text₂ : String) (template₁ template₂ : Template) (bytes : Bytes),
      Template.parse? tag text₁ = some template₁ → Template.parse? tag text₂ = some template₂ →
      template₁.metaInfo = template₂.metaInfo →
      Base64.decode template₁.payload = .ok bytes → Base64.decode template₂.payload = .ok bytes →
      text₁ = text₂) ∧
    (∀ (tag text : String) (template : Template) (data : EncryptedData),
      Template.parse? tag text = some template →
      Base64.decode template.payload = .ok data.payload →
      (EncryptResult.mk data template.algorithm (some template.keyAlias) tag).template =
        .ok text) := by
  refine ⟨?_, ?_, ?_⟩
  · intro result text
    simp only [template_eq_ok_iff, Base64.decode_eq_ok_iff]
    constructor
    · intro h
      obtain ⟨keyAlias, hkeyAlias, hparse⟩ := h
      exact ⟨keyAlias, result.base64, hkeyAlias, hparse, rfl⟩
    · intro h
      obtain ⟨keyAlias, payload, hkeyAlias, hparse, rfl⟩ := h
      exact ⟨keyAlias, hkeyAlias, hparse⟩
  · intro tag text₁ text₂ template₁ template₂ bytes hparse₁ hparse₂ hmeta hbytes₁ hbytes₂
    have hpayload : template₁.payload = template₂.payload := by
      rw [Base64.decode_eq_ok_iff.mp hbytes₁, Base64.decode_eq_ok_iff.mp hbytes₂]
    have htemplate : template₁ = template₂ := by
      cases template₁
      cases template₂
      simp_all [Template.metaInfo]
    subst htemplate
    rw [Template.parse?_eq_some_iff_render] at hparse₁ hparse₂
    exact Except.ok.inj (hparse₁.symm.trans hparse₂)
  · intro tag text template data hparse hbytes
    refine template_eq_ok_iff.mpr ⟨template.keyAlias, rfl, ?_⟩
    have hpayload : template.payload = Base64.encode data.payload :=
      Base64.decode_eq_ok_iff.mp hbytes
    rw [hparse]
    exact congrArg (fun payload => some (Template.mk _ _ payload)) hpayload

/-- Two bytes under the alias `k`, with an algorithm name that keeps its own spelling. -/
theorem template_of_two_bytes :
    Template.parse? "v2c" "\x7bv2c\x7d\x7baes\x7d\x7bk\x7d\x7bAAE=\x7d" =
        some ⟨"aes", "k", "AAE="⟩ ∧
      (EncryptResult.mk ⟨none, [0, 1]⟩ "aes" (some "k") "v2c").template =
        .ok "\x7bv2c\x7d\x7baes\x7d\x7bk\x7d\x7bAAE=\x7d" := by
  have hparse : Template.parse? "v2c" "\x7bv2c\x7d\x7baes\x7d\x7bk\x7d\x7bAAE=\x7d" =
      some ⟨"aes", "k", "AAE="⟩ := by decide
  have hbytes : Base64.decode "AAE=" = .ok (EncryptedData.mk none [0, 1]).payload := by rfl
  exact ⟨hparse, template_canonical.2.2 _ _ _ ⟨none, [0, 1]⟩ hparse hbytes⟩

end EncryptResult

end CipherVault
