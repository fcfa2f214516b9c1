import CipherVault.Proofs.Blank
import CipherVault.Proofs.TemplateText
import CipherVault.Transform.Cipher
/-!
# The grammar of transform names

Without white space around it and in upper case, a name is one of a few words or three of them with
slashes between.  The grammar below lists these texts; reading a name is looking it up there.  None
of the texts holds a brace, and neither trimming nor upper case loses one, so every name that is
accepted can stand in a template.
-/

namespace CipherVault.Transform

open Template (IsBare)

/-! ## The grammar -/

/-- The words for modes, in the second place of a name. -/
inductive ModeWord : String → Aes.Mode → Prop
  | ecb : ModeWord "ECB" .ecb
  | cbc : ModeWord "CBC" .cbc

/-- The words for paddings, in the third place. -/
inductive PaddingWord : String → Aes.Padding → Prop
  | pkcs5 : PaddingWord "PKCS5PADDING" .pkcs7
  | pkcs7 : PaddingWord "PKCS7PADDING" .pkcs7
  | none : PaddingWord "NOPADDING" .none

inductive RsaPaddingWord : String → Rsa.Padding → Prop
  | pkcs1 : RsaPaddingWord "PKCS1PADDING" .pkcs1
  | oaepSha256 : RsaPaddingWord "OAEPWITHSHA-256ANDMGF1PADDING" .oaepSha256

/-- The texts that denote transforms. -/
inductive Denotes : String → Transform → Prop
  | aes : Denotes "AES" (.aes .ecb .pkcs7)
  | aesMode {modeWord paddingWord : String} {mode : Aes.Mode} {padding : Aes.Padding}
    (hmode : ModeWord modeWord mode) (hpadding : PaddingWord paddingWord padding) :
    Denotes ("AES" ++ "/" ++ modeWord ++ "/" ++ paddingWord) (.aes mode padding)
  | aesGcm : Denotes "AES/GCM/NOPADDING" .aesGcm
  | chaCha : Denotes "CHACHA20-POLY1305" .chaCha20Poly1305
  | chaChaNone : Denotes "CHACHA20-POLY1305/NONE/NOPADDING" .chaCha20Poly1305
  | rsa : Denotes "RSA" (.rsa .pkcs1)
  | rsaEcb {paddingWord : String} {padding : Rsa.Padding}
    (hpadding : RsaPaddingWord paddingWord padding) :
    Denotes ("RSA" ++ "/" ++ "ECB" ++ "/" ++ paddingWord) (.rsa padding)
  | rsaNone {paddingWord : String} {padding : Rsa.Padding}
    (hpadding : RsaPaddingWord paddingWord padding) :
    Denotes ("RSA" ++ "/" ++ "NONE" ++ "/" ++ paddingWord) (.rsa padding)

/-! ## Words -/

theorem aesMode?_eq_some_iff {word : String} {mode : Aes.Mode} :
    aesMode? word = some mode ↔ ModeWord word mode := by
  constructor
  · intro h
    rw [aesMode?] at h
    split at h
    · next hword => subst hword; cases h; exact .ecb
    split at h
    · next hword => subst hword; cases h; exact .cbc
    · cases h
  · rintro (_ | _) <;> rfl

theorem aesPadding?_eq_some_iff {word : String} {padding : Aes.Padding} :
    aesPadding? word = some padding ↔ PaddingWord word padding := by
  constructor
  · intro h
    rw [aesPadding?] at h
    split at h
    · next hword =>
      cases h
      rcases hword with rfl | rfl
      · exact .pkcs5
      · exact .pkcs7
    split at h
    · next hword => subst hword; cases h; exact .none
    · cases h
  · rintro (_ | _ | _) <;> rfl

theorem rsaPadding?_eq_some_iff {word : String} {padding : Rsa.Padding} :
    rsaPadding? word = some padding ↔ RsaPaddingWord word padding := by
  constructor
  · intro h
    rw [rsaPadding?] at h
    split at h
    · next hword => subst hword; cases h; exact .pkcs1
    split at h
    · next hword => subst hword; cases h; exact .oaepSha256
    · cases h
  · rintro (_ | _) <;> rfl

/-- Words that denote a transform do so with slashes between them. -/
theorem denotes_of_ofParts? {words : List String} {transform : Transform}
    (h : ofParts? words = some transform) : Denotes (String.intercalate "/" words) transform := by
  rw [ofParts?.eq_def] at h
  split at h
  · next algorithm =>
    split at h
    · next hword => subst hword; cases h; exact .aes
    split at h
    · next hword => subst hword; cases h; exact .chaCha
    split at h
    · next hword => subst hword; cases h; exact .rsa
    · cases h
  · next algorithm mode padding =>
    change Denotes (algorithm ++ "/" ++ mode ++ "/" ++ padding) transform
    split at h
    · next halgorithm =>
      subst halgorithm
      split at h
      · next hmode =>
        subst hmode
        split at h
        · next hpadding => subst hpadding; cases h; exact .aesGcm
        · cases h
      · simp only [Option.bind_eq_bind, Option.bind_eq_some_iff, Option.some.injEq,
          aesMode?_eq_some_iff, aesPadding?_eq_some_iff] at h
        obtain ⟨_, hmode, _, hpadding, rfl⟩ := h
        exact .aesMode hmode hpadding
    split at h
    · next halgorithm =>
      subst halgorithm
      split at h
      · next hwords =>
        obtain ⟨rfl, rfl⟩ := hwords
        cases h
        exact .chaChaNone
      · cases h
    split at h
    · next halgorithm =>
      subst halgorithm
      split at h
      · next hmode =>
        obtain ⟨_, hpadding, rfl⟩ := Option.map_eq_some_iff.mp h
        rw [rsaPadding?_eq_some_iff] at hpadding
        rcases hmode with rfl | rfl
        · exact .rsaEcb hpadding
        · exact .rsaNone hpadding
      · cases h
    · cases h
  · cases h

/-! ## Texts -/

/-- The words between the slashes of a text. -/
def wordsOf (text : String) : List String :=
  (splitSlashes text.toList).map String.ofList

theorem parts_eq (name : String) :
    parts name = wordsOf (Text.upperAscii (Text.trim name)) := by
  rw [parts, wordsOf, Text.upperAscii, Text.trim, String.toList_ofList, String.toList_ofList]

theorem splitSlashes_ne_nil (cs : List Char) : splitSlashes cs ≠ [] := by
  cases cs with
  | nil => exact List.cons_ne_nil _ _
  | cons c rest =>
    rw [splitSlashes]
    split
    · exact List.cons_ne_nil _ _
    · split <;> exact List.cons_ne_nil _ _

/-- The pieces with slashes between them are the text that was split. -/
theorem intercalate_splitSlashes (cs : List Char) :
    List.intercalate ['/'] (splitSlashes cs) = cs := by
  induction cs with
  | nil => rfl
  | cons c rest ih =>
    rw [splitSlashes]
    cases hpieces : splitSlashes rest with
    | nil => exact absurd hpieces (splitSlashes_ne_nil rest)
    | cons piece pieces =>
      rw [hpieces] at ih
      by_cases hslash : c = '/'
      · simp only [if_pos hslash]
        rw [List.intercalate_cons_cons, ih, hslash]
        rfl
      · simp only [if_neg hslash]
        -- The character moves into the first piece, whatever is behind it.
        cases pieces with
        | nil =>
          rw [List.intercalate_singleton] at ih ⊢
          rw [ih]
        | cons next others =>
          rw [List.intercalate_cons_cons] at ih ⊢
          rw [List.cons_append, List.cons_append, ih]

theorem intercalate_wordsOf (text : String) : String.intercalate "/" (wordsOf text) = text := by
  have hpieces : (wordsOf text).map String.toList = splitSlashes text.toList := by
    simp [wordsOf, Function.comp_def]
  rw [← String.toList_inj, String.toList_intercalate, hpieces]
  exact intercalate_splitSlashes text.toList

/-- Splitting a text and reading its words is looking the text up in the grammar. -/
theorem ofParts?_wordsOf_eq_some_iff {text : String} {transform : Transform} :
    ofParts? (wordsOf text) = some transform ↔ Denotes text transform := by
  constructor
  · intro h
    have hdenotes := denotes_of_ofParts? h
    rwa [intercalate_wordsOf] at hdenotes
  · intro h
    cases h with
    | aes | aesGcm | chaCha | chaChaNone | rsa => rfl
    | aesMode hmode hpadding => cases hmode <;> cases hpadding <;> rfl
    | rsaEcb hpadding | rsaNone hpadding => cases hpadding <;> rfl

variable {name : String} {transform : Transform}

/-- A name denotes what it does without white space around it and in upper case. -/
theorem ofName?_eq_some_iff :
    ofName? name = some transform ↔ Denotes (Text.upperAscii (Text.trim name)) transform := by
  rw [ofName?, parts_eq, ofParts?_wordsOf_eq_some_iff]

theorem ofName?_name (transform : Transform) : ofName? transform.name = some transform := by
  cases transform with
  | aes mode padding => cases mode <;> cases padding <;> rfl
  | aesGcm => rfl
  | chaCha20Poly1305 => rfl
  | rsa padding => cases padding <;> rfl

/-! ## Other spellings -/

/-- A name in other cases and with white space at its ends denotes the same. -/
theorem ofName?_respelled {before recased after : String}
    (hrecased : List.Forall₂ Text.Recases name.toList recased.toList)
    (hbefore : ∀ c ∈ before.toList, Text.isBlank c = true)
    (hafter : ∀ c ∈ after.toList, Text.isBlank c = true) :
    ofName? (before ++ recased ++ after) = ofName? name := by
  rw [ofName?, ofName?, parts_eq, parts_eq, Text.trim_between hbefore hafter,
    ← Text.trim_upperAscii, Text.upperAscii_eq_of_recases hrecased, Text.trim_upperAscii]

/-! ## Braces -/

theorem isBare_of_denotes {text : String} (h : Denotes text transform) : IsBare text := by
  cases h with
  | aes | aesGcm | chaCha | chaChaNone | rsa => decide
  | aesMode hmode hpadding => cases hmode <;> cases hpadding <;> decide
  | rsaEcb hpadding | rsaNone hpadding => cases hpadding <;> decide

/-- Whatever denotes a transform can stand in a template. -/
theorem isBare_of_ofName? (h : ofName? name = some transform) : IsBare name := by
  have hbare := isBare_of_denotes (ofName?_eq_some_iff.mp h)
  have hupper : ∀ c ∈ name.toList, Text.isBlank c = false →
      c.toUpper ∈ (Text.upperAscii (Text.trim name)).toList := by
    intro c hmem hblank
    rw [Text.upperAscii, Text.trim, String.toList_ofList, String.toList_ofList]
    exact List.mem_map_of_mem (Text.mem_trimChars hblank hmem)
  constructor
  · rintro rfl
    exact hbare.1 rfl
  · intro c hmem
    constructor
    · rintro rfl
      exact (hbare.2 _ (hupper _ hmem (by decide))).1 (by decide)
    · rintro rfl
      exact (hbare.2 _ (hupper _ hmem (by decide))).2 (by decide)

/-! ## Parsing -/

theorem parse_eq_ok_iff : parse name = .ok transform ↔ ofName? name = some transform := by
  rw [parse]
  cases ofName? name with
  | some found => simp
  | none => simp

theorem parse_of_ofName?_eq_none (h : ofName? name = none) :
    parse name = .error (.illegal (.unsupportedAlgorithm name)) := by
  rw [parse, h]

/-- A template is not refused for a name that can stand in it. -/
theorem render_ne_badAlgorithm (h : IsBare name) (tag keyAlias payload value : String) :
    Template.render tag ⟨name, keyAlias, payload⟩ ≠
      .error (.illegal (.templateSegment .algorithm value)) := by
  intro hrefused
  obtain ⟨segment, hsegment, hunfit⟩ := Template.exists_of_render_eq_error hrefused
  simp only [CipherError.illegal.injEq, ParameterFault.templateSegment.injEq] at hsegment
  obtain ⟨rfl, -⟩ := hsegment
  exact hunfit h

/-- Exactly the names in the grammar, in whatever case and with white space at the ends, are read as
the transforms that they denote there; every other name is refused, and the refusal quotes it.
Neither the case of letters nor white space at the ends matters to what is read or refused.  A name
that is read is not empty, holds no brace and is never what a template is refused for; and the
preferred name of a transform is read as that transform. -/
theorem names_form_closed_grammar :
    (∀ name transform,
      parse name = .ok transform ↔ Denotes (Text.upperAscii (Text.trim name)) transform) ∧
    (∀ name, (¬∃ transform, Denotes (Text.upperAscii (Text.trim name)) transform) →
      parse name = .error (.illegal (.unsupportedAlgorithm name))) ∧
    (∀ name before recased after : String,
      List.Forall₂ Text.Recases name.toList recased.toList →
      (∀ c ∈ before.toList, Text.isBlank c = true) →
      (∀ c ∈ after.toList, Text.isBlank c = true) →
      ∀ transform, parse (before ++ recased ++ after) = .ok transform ↔
        parse name = .ok transform) ∧
    (∀ name transform, parse name = .ok transform →
      IsBare name ∧ ∀ tag keyAlias payload value : String,
        Template.render tag ⟨name, keyAlias, payload⟩ ≠
          .error (.illegal (.templateSegment .algorithm value))) ∧
    ∀ transform : Transform, parse transform.name = .ok transform := by
  refine ⟨?_, ?_, ?_, ?_, ?_⟩
  · intro name transform
    rw [parse_eq_ok_iff, ofName?_eq_some_iff]
  · intro name hnone
    apply parse_of_ofName?_eq_none
    rw [Option.eq_none_iff_forall_ne_some]
    exact fun transform h => hnone ⟨transform, ofName?_eq_some_iff.mp h⟩
  · intro name before recased after hrecased hbefore hafter transform
    rw [parse_eq_ok_iff, parse_eq_ok_iff, ofName?_respelled hrecased hbefore hafter]
  · intro name transform h
    have hbare := isBare_of_ofName? (parse_eq_ok_iff.mp h)
    exact ⟨hbare, render_ne_badAlgorithm hbare⟩
  · intro transform
    exact parse_eq_ok_iff.mpr (ofName?_name transform)

/-- A name in mixed case between blanks; the same name with a letter that is no letter of ASCII,
although its upper case is one. -/
theorem names_form_closed_grammar_respelled :
    parse " Aes/cbc/Pkcs7padding\n" = .ok (.aes .cbc .pkcs7) ∧
      parse "Ae\u017f" = .error (.illegal (.unsupportedAlgorithm "Ae\u017f")) ∧
      IsBare " Aes/cbc/Pkcs7padding\n" := by
  obtain ⟨hreads, hrefuses, hrespelled, hbare, -⟩ := names_form_closed_grammar
  have hplain : parse "AES/CBC/PKCS7PADDING" = .ok (.aes .cbc .pkcs7) := by
    rw [hreads]
    exact .aesMode .cbc .pkcs7
  have hmixed : parse (" " ++ "Aes/cbc/Pkcs7padding" ++ "\n") = .ok (.aes .cbc .pkcs7) :=
    (hrespelled "AES/CBC/PKCS7PADDING" " " "Aes/cbc/Pkcs7padding" "\n" (by decide)
      (List.all_eq_true.mp rfl) (List.all_eq_true.mp rfl) _).mpr hplain
  refine ⟨hmixed, ?_, (hbare _ _ hmixed).1⟩
  apply hrefuses
  rintro ⟨transform, h⟩
  have hnone : ofName? "Ae\u017f" = none := by decide
  rw [← ofName?_eq_some_iff, hnone] at h
  cases h

end CipherVault.Transform
