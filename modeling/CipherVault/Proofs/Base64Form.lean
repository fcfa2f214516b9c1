import CipherVault.Proofs.Blank
import CipherVault.Proofs.PayloadLength
import CipherVault.Proofs.RawBytes
import CipherVault.Proofs.TextDecryption
/-!
# The base64 form of a result

The base64 of what the default provider encrypted names neither algorithm nor key, so it is
decrypted with the defaults that it was encrypted with.  White space around it is trimmed and no
symbol of it is taken for white space, and without a brace it is no template to any provider.
-/

namespace CipherVault

namespace Base64

/-- What holds of all symbols and of the pad sign holds of all characters of an encoding. -/
theorem forall_mem_encodeChars {P : Char → Prop} (hsymbol : ∀ value < 64, P (symbol value))
    (hpad : P '=') (bs : Bytes) : ∀ c ∈ encodeChars bs, P c := by
  have hlow : ∀ b : Byte, b.toNat < 256 := UInt8.toNat_lt
  fun_induction encodeChars bs with
  | case1 => simp
  | case2 a =>
    have ha := hlow a
    simp only [List.forall_mem_cons]
    exact ⟨hsymbol _ (by omega), hsymbol _ (by omega), hpad, hpad, by simp⟩
  | case3 a b =>
    have ha := hlow a
    have hb := hlow b
    simp only [List.forall_mem_cons]
    exact ⟨hsymbol _ (by omega), hsymbol _ (by omega), hsymbol _ (by omega), hpad, by simp⟩
  | case4 a b c rest ih =>
    have ha := hlow a
    have hb := hlow b
    have hc := hlow c
    simp only [List.forall_mem_cons]
    exact ⟨hsymbol _ (by omega), hsymbol _ (by omega), hsymbol _ (by omega), hsymbol _ (by omega),
      ih⟩

theorem isBlank_of_mem_encodeChars (bs : Bytes) :
    ∀ c ∈ encodeChars bs, Text.isBlank c = false :=
  forall_mem_encodeChars (by decide) (by decide) bs

theorem ne_leftBrace_of_mem_encodeChars (bs : Bytes) : ∀ c ∈ encodeChars bs, c ≠ '\x7b' :=
  forall_mem_encodeChars (by decide) (by decide) bs

theorem encode_ne_empty {bs : Bytes} (h : bs ≠ []) : encode bs ≠ "" := by
  intro hempty
  have hchars : encodeChars bs = [] := by
    simpa [encode] using congrArg String.toList hempty
  have hlength := length_le_encodeChars bs
  rw [hchars] at hlength
  exact h (List.length_eq_zero_iff.mp (Nat.le_zero.mp hlength))

end Base64

theorem Text.ne_leftBrace_of_isBlank {c : Char} (h : isBlank c = true) : c ≠ '\x7b' := by
  rintro rfl
  exact absurd h (by decide)

/-- Without a brace no text is a template. -/
theorem Template.parse?_eq_none_of_noBrace {tag text : String}
    (h : ∀ c ∈ text.toList, c ≠ '\x7b') : parse? tag text = none := by
  cases hparse : parse? tag text with
  | none => rfl
  | some template =>
    obtain ⟨htext, -⟩ := groups?_eq_some_iff.mp (parse?_eq_some_iff.mp hparse)
    refine absurd rfl (h '\x7b' ?_)
    rw [htext]
    simp [segments, bracket]

namespace TemplateProvider

/-- Bytes that spell no template are decrypted with the defaults to what was encrypted with them. -/
theorem decrypt_bytes_of_encrypt {provider : TemplateProvider} {entropy : Entropy}
    {iv : Option Bytes} {plain : Bytes} {result : EncryptResult} {algorithm : String}
    {transform : Transform} (halgorithm : provider.defaults.algorithm = some algorithm)
    (htransform : Transform.parse algorithm = .ok transform)
    (hsymmetric : transform.isSymmetric = true)
    (hresult : (provider.encrypt entropy ⟨plain, { iv }⟩).outcome = .ok result)
    (hraw : template? result.bytes = none) :
    (provider.decrypt ⟨result.bytes, {}⟩).outcome = .ok ⟨plain⟩ := by
  obtain ⟨resolved, parsed, data, hresolved, hparsed, hdata, rfl⟩ :=
    encrypt_eq_ok_iff.mp hresult
  have hchosen : resolved.algorithm = algorithm :=
    Option.some.inj ((Resolved.resolve_eq_ok_iff.mp hresolved).1.symm.trans halgorithm)
  obtain rfl : parsed = transform := by
    rw [hchosen] at hparsed
    exact Except.ok.inj (hparsed.symm.trans htransform)
  have hplain := Transform.decrypt_of_encrypt hsymmetric hdata
  rw [decrypt_eq_ok_iff, hraw]
  exact ⟨resolved, parsed, _, plain, hresolved, hparsed, rfl, hplain, rfl⟩

end TemplateProvider

namespace Service

variable {default : Nat × TemplateProvider} {listed : List (Nat × TemplateProvider)}

/-- A text between white space that is the base64 of raw bytes goes to the default provider as these
bytes. -/
theorem decrypt_surrounded (default : Nat × TemplateProvider)
    (listed : List (Nat × TemplateProvider)) {before after : String} {bytes : Bytes}
    (hbefore : ∀ c ∈ before.toList, Text.isBlank c = true)
    (hafter : ∀ c ∈ after.toList, Text.isBlank c = true) (hne : bytes ≠ []) :
    (ofTemplates default listed).metaInfo? (before ++ Base64.encode bytes ++ after) = none ∧
      (ofTemplates default listed).decrypt (before ++ Base64.encode bytes ++ after) =
        handOver default.2.toProvider bytes := by
  have hchars : (Base64.encode bytes).toList = Base64.encodeChars bytes := String.toList_ofList
  have hparse : Template.parse? TemplateProvider.tag (before ++ Base64.encode bytes ++ after) =
      none := by
    apply Template.parse?_eq_none_of_noBrace
    simp only [String.toList_append, List.forall_mem_append, hchars]
    exact ⟨⟨fun c hc => Text.ne_leftBrace_of_isBlank (hbefore c hc),
      Base64.ne_leftBrace_of_mem_encodeChars bytes⟩,
      fun c hc => Text.ne_leftBrace_of_isBlank (hafter c hc)⟩
  have htrim : Text.trim (before ++ Base64.encode bytes ++ after) = Base64.encode bytes := by
    apply Text.trim_surrounded hbefore _ hafter
    rw [hchars]
    exact Base64.isBlank_of_mem_encodeChars bytes
  have hpayload : unrecognizedPayload (before ++ Base64.encode bytes ++ after) = .ok bytes := by
    rw [unrecognizedPayload_eq_ok_iff, htrim]
    exact ⟨Base64.encode_ne_empty hne, Base64.decode_encode bytes⟩
  constructor
  · rw [metaInfo?_ofTemplates, hparse]
    rfl
  · rw [decrypt_of_noTemplate hparse, hpayload, Traced.ofExcept_ok_bind]

/-- The base64 of what a service encrypted with its defaults, under a vector that was pinned or
drawn, says nothing of itself to any provider.  Alone or between white space the service decrypts it
to the text again, unless there are no bytes or they spell a template. -/
theorem decrypt_base64_of_encryptText {entropy : Entropy} {iv : Option Bytes}
    {text algorithm : String} {transform : Transform} {result : EncryptResult}
    (halgorithm : default.2.defaults.algorithm = some algorithm)
    (htransform : Transform.parse algorithm = .ok transform)
    (hsymmetric : transform.isSymmetric = true)
    (hresult : ((ofTemplates default listed).encryptText { iv } entropy text).outcome = .ok result)
    (hne : result.bytes ≠ []) (hraw : TemplateProvider.template? result.bytes = none)
    {before after : String} (hbefore : ∀ c ∈ before.toList, Text.isBlank c = true)
    (hafter : ∀ c ∈ after.toList, Text.isBlank c = true) :
    (ofTemplates default listed).metaInfo? (before ++ result.base64 ++ after) = none ∧
      ∃ decrypted, ((ofTemplates default listed).decrypt
          (before ++ result.base64 ++ after)).outcome = .ok decrypted ∧
        decrypted.text = .ok text := by
  have hencrypted : (default.2.encrypt entropy ⟨Utf8.encode text, { iv }⟩).outcome = .ok result :=
    (outcome_encryptBytes ..).symm.trans hresult
  have hdecrypted := TemplateProvider.decrypt_bytes_of_encrypt halgorithm htransform hsymmetric
    hencrypted hraw
  obtain ⟨hmeta, hdecrypt⟩ := decrypt_surrounded default listed hbefore hafter hne
  refine ⟨hmeta, ⟨Utf8.encode text⟩, ?_, ?_⟩
  · rw [EncryptResult.base64, hdecrypt]
    exact hdecrypted
  · rw [DecryptResult.text, Utf8.decode_encode]
    rfl

/-- Two bytes under a pinned vector, in base64 between blanks.  The provider that is asked first has
no keys, and it is not asked. -/
theorem decrypt_base64_two_bytes :
    (ofTemplates (0, sampleProvider "main" ⟨some "AES/CBC/PKCS5Padding", some "k", none⟩)
        [(1, ⟨.ofKeys (.empty "other"), {}⟩)]).metaInfo?
          (" " ++ "AAAAAAAAAAAAAAAAAAAAAHL8bK9Mxi0bx8PVSR1VzzI=" ++ "\n") = none ∧
      ∃ decrypted,
        ((ofTemplates (0, sampleProvider "main" ⟨some "AES/CBC/PKCS5Padding", some "k", none⟩)
          [(1, ⟨.ofKeys (.empty "other"), {}⟩)]).decrypt
            (" " ++ "AAAAAAAAAAAAAAAAAAAAAHL8bK9Mxi0bx8PVSR1VzzI=" ++ "\n")).outcome =
              .ok decrypted ∧
          decrypted.text = .ok "hi" := by
  have htransform :
      (Transform.parse "AES/CBC/PKCS5Padding").toOption = some (.aes .cbc .pkcs7) := by
    decide +kernel
  have hresult :
      ((ofTemplates (0, sampleProvider "main" ⟨some "AES/CBC/PKCS5Padding", some "k", none⟩)
        [(1, ⟨.ofKeys (.empty "other"), {}⟩)]).encryptText { iv := some (List.replicate 16 0) }
          ⟨fun _ => 0, fun _ => ⟨1, by decide⟩⟩ "hi").outcome.toOption =
        some ⟨⟨some (List.replicate 16 0),
          [114, 252, 108, 175, 76, 198, 45, 27, 199, 195, 213, 73, 29, 85, 207, 50]⟩,
          "AES/CBC/PKCS5Padding", some "k", "v2c"⟩ := by
    decide +kernel
  have hraw : TemplateProvider.template? (List.replicate 16 0 ++
      [114, 252, 108, 175, 76, 198, 45, 27, 199, 195, 213, 73, 29, 85, 207, 50]) = none := by
    decide +kernel
  exact decrypt_base64_of_encryptText rfl (Outcome.toOption_eq_some.mp htransform) rfl
    (Outcome.toOption_eq_some.mp hresult) (by decide) hraw (List.all_eq_true.mp rfl)
    (List.all_eq_true.mp rfl)

end Service

end CipherVault
