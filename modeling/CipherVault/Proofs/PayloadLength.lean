import CipherVault.Proofs.Template
import CipherVault.Provider
/-!
# Templates are longer than what they carry

Base64 never shortens, a template holds more than its payload, and a text has at least as many bytes
as characters.  So the payload of a template has fewer bytes than the template.
-/

namespace CipherVault

namespace Utf8

private theorem length_of_map_cons {c : Char} {rest : Except DecodeError (List Char)}
    {cs : List Char} {bound : Nat} (h : rest.map (c :: ·) = .ok cs)
    (hrest : ∀ {more : List Char}, rest = .ok more → more.length ≤ bound) :
    cs.length ≤ bound + 1 := by
  obtain ⟨more, hmore, rfl⟩ := Outcome.map_eq_ok.mp h
  exact Nat.succ_le_succ (hrest hmore)

/-- Every character takes at least one byte.  The four cases that read on are those of one to four
bytes; the others refuse. -/
theorem length_decodeCharsFrom {start : Nat} {bs : Bytes} {cs : List Char}
    (h : decodeCharsFrom start bs = .ok cs) : cs.length ≤ bs.length := by
  fun_induction decodeCharsFrom start bs generalizing cs with
  | case1 =>
    cases h
    exact Nat.le_refl _
  | case2 =>
    rename_i ih
    exact length_of_map_cons h ih
  | case6 | case9 | case12 =>
    rename_i ih
    exact Nat.le_trans (length_of_map_cons h ih) (by simp)
  | case3 | case4 | case5 | case7 | case8 | case10 | case11 => cases h

theorem length_toList_of_decode {bs : Bytes} {text : String} (h : decode bs = .ok text) :
    text.toList.length ≤ bs.length := by
  obtain ⟨cs, hcs, rfl⟩ := Outcome.map_eq_ok.mp h
  rw [String.toList_ofList]
  exact length_decodeCharsFrom hcs

end Utf8

namespace Base64

theorem length_le_encodeChars (bs : Bytes) : bs.length ≤ (encodeChars bs).length := by
  fun_induction encodeChars bs with
  | case1 => exact Nat.le_refl _
  | case2 | case3 => simp
  | case4 a b c rest ih =>
    simp only [List.length_cons]
    omega

theorem length_le_of_decode {text : String} {bs : Bytes} (h : decode text = .ok bs) :
    bs.length ≤ text.toList.length := by
  rw [decode_eq_ok_iff.mp h, encode, String.toList_ofList]
  exact length_le_encodeChars bs

end Base64

/-- The braces alone make a template longer than its payload. -/
theorem Template.length_payload_lt {tag text : String} {template : Template}
    (h : parse? tag text = some template) :
    template.payload.toList.length < text.toList.length := by
  obtain ⟨htext, -⟩ := groups?_eq_some_iff.mp (parse?_eq_some_iff.mp h)
  rw [htext]
  simp only [segments, bracket, List.flatMap_cons, List.flatMap_nil, List.length_append,
    List.length_cons, List.length_nil]
  omega

/-- What a template carries is shorter than the template. -/
theorem TemplateProvider.length_payload_lt {ciphertext bytes : Bytes} {template : Template}
    (htemplate : template? ciphertext = some template)
    (hbytes : Base64.decode template.payload = .ok bytes) : bytes.length < ciphertext.length := by
  obtain ⟨text, htext, hparse⟩ := Option.bind_eq_some_iff.mp htemplate
  calc
    bytes.length ≤ template.payload.toList.length := Base64.length_le_of_decode hbytes
    _ < text.toList.length := Template.length_payload_lt hparse
    _ ≤ ciphertext.length := Utf8.length_toList_of_decode (Outcome.toOption_eq_some.mp htext)

end CipherVault
