import CipherVault.Text
/-!
# Texts survive UTF-8

Reading the bytes of a text gives the text back, so no two texts share their bytes.  The proof goes
character by character: whatever follows, the one to four bytes of a character are read as it.
-/

namespace CipherVault.Utf8

theorem toNat_lt (c : Char) : c.toNat < 0x110000 := by
  have hvalid := c.valid
  simp only [UInt32.isValidChar, Nat.isValidChar] at hvalid
  change c.val.toNat < 0x110000
  omega

theorem not_surrogate (c : Char) : c.toNat < 0xD800 ∨ 0xDFFF < c.toNat := by
  have hvalid := c.valid
  simp only [UInt32.isValidChar, Nat.isValidChar] at hvalid
  change c.val.toNat < 0xD800 ∨ 0xDFFF < c.val.toNat
  omega

/-- The ranges of the second byte are what keeps overlong forms and surrogates out; the second byte
of a character is always within them. -/
private theorem isSecond_three {n : Nat} (hlow : 0x800 ≤ n) (hhigh : n < 0x10000)
    (hsurrogate : n < 0xD800 ∨ 0xDFFF < n) :
    isSecond (0xE0 + n / 0x1000) (0x80 + n / 0x40 % 0x40) = true := by
  simp only [isSecond, isContinuation, beq_iff_eq]
  split
  · simp only [Bool.and_eq_true, decide_eq_true_eq]
    omega
  split
  · simp only [Bool.and_eq_true, decide_eq_true_eq]
    omega
  rw [if_neg (by omega), if_neg (by omega)]
  simp only [Bool.and_eq_true, decide_eq_true_eq]
  omega

private theorem isSecond_four {n : Nat} (hlow : 0x10000 ≤ n) (hhigh : n < 0x110000) :
    isSecond (0xF0 + n / 0x40000) (0x80 + n / 0x1000 % 0x40) = true := by
  simp only [isSecond, isContinuation, beq_iff_eq]
  rw [if_neg (by omega), if_neg (by omega)]
  split
  · simp only [Bool.and_eq_true, decide_eq_true_eq]
    omega
  split
  · simp only [Bool.and_eq_true, decide_eq_true_eq]
    omega
  simp only [Bool.and_eq_true, decide_eq_true_eq]
  omega

private theorem isSecond_two {n : Nat} (hlow : 0x80 ≤ n) (hhigh : n < 0x800) :
    isSecond (0xC0 + n / 0x40) (0x80 + n % 0x40) = true := by
  simp only [isSecond, isContinuation, beq_iff_eq]
  rw [if_neg (by omega), if_neg (by omega), if_neg (by omega), if_neg (by omega)]
  simp only [Bool.and_eq_true, decide_eq_true_eq]
  omega

private theorem isContinuation_low (n : Nat) : isContinuation (0x80 + n % 0x40) = true := by
  simp only [isContinuation, Bool.and_eq_true, decide_eq_true_eq]
  omega

/-- The bytes of a character in front of any others are read as the character. -/
theorem decodeCharsFrom_encodeChar_append (start : Nat) (c : Char) (rest : Bytes) :
    decodeCharsFrom start (encodeChar c ++ rest) =
      (decodeCharsFrom (start + (encodeChar c).length) rest).map (c :: ·) := by
  have hmax := toNat_lt c
  have hchar : ∀ n, n = c.toNat → Char.ofNat n = c := by
    intro n hn
    rw [hn, Char.ofNat_toNat]
  have hlast : (UInt8.ofNat (0x80 + c.toNat % 0x40)).toNat = 0x80 + c.toNat % 0x40 := by
    rw [UInt8.toNat_ofNat']
    omega
  have hmiddle : (UInt8.ofNat (0x80 + c.toNat / 0x40 % 0x40)).toNat =
      0x80 + c.toNat / 0x40 % 0x40 := by
    rw [UInt8.toNat_ofNat']
    omega
  simp only [encodeChar]
  split
  · next hone =>
    have hfirst : (UInt8.ofNat c.toNat).toNat = c.toNat := by
      rw [UInt8.toNat_ofNat']
      omega
    simp only [List.cons_append, List.nil_append, List.length_cons, List.length_nil]
    rw [decodeCharsFrom.eq_def start]
    simp only [hfirst]
    rw [if_pos hone, hchar _ rfl]
  split
  · next hone htwo =>
    have hfirst : (UInt8.ofNat (0xC0 + c.toNat / 0x40)).toNat = 0xC0 + c.toNat / 0x40 := by
      rw [UInt8.toNat_ofNat']
      omega
    have hsecond := isSecond_two (Nat.not_lt.mp hone) htwo
    simp only [List.cons_append, List.nil_append, List.length_cons, List.length_nil]
    rw [decodeCharsFrom.eq_def start]
    simp only [hfirst, hlast, hsecond, Bool.not_true]
    rw [if_neg (by omega), if_neg (by simp; omega), if_neg (by simp), if_pos (by omega),
      hchar _ (by omega)]
  split
  · next hone htwo hthree =>
    have hfirst : (UInt8.ofNat (0xE0 + c.toNat / 0x1000)).toNat = 0xE0 + c.toNat / 0x1000 := by
      rw [UInt8.toNat_ofNat']
      omega
    have hsecond := isSecond_three (Nat.not_lt.mp htwo) hthree (not_surrogate c)
    simp only [List.cons_append, List.nil_append, List.length_cons, List.length_nil]
    rw [decodeCharsFrom.eq_def start]
    simp only [hfirst, hmiddle, hlast, hsecond, isContinuation_low, Bool.not_true]
    rw [if_neg (by omega), if_neg (by simp; omega), if_neg (by simp), if_neg (by omega),
      if_neg (by simp), if_pos (by omega), hchar _ (by omega)]
  · next hone htwo hthree =>
    have hfirst : (UInt8.ofNat (0xF0 + c.toNat / 0x40000)).toNat = 0xF0 + c.toNat / 0x40000 := by
      rw [UInt8.toNat_ofNat']
      omega
    have hupper : (UInt8.ofNat (0x80 + c.toNat / 0x1000 % 0x40)).toNat =
        0x80 + c.toNat / 0x1000 % 0x40 := by
      rw [UInt8.toNat_ofNat']
      omega
    have hsecond := isSecond_four (Nat.not_lt.mp hthree) hmax
    simp only [List.cons_append, List.nil_append, List.length_cons, List.length_nil]
    rw [decodeCharsFrom.eq_def start]
    simp only [hfirst, hupper, hmiddle, hlast, hsecond, isContinuation_low, Bool.not_true]
    rw [if_neg (by omega), if_neg (by simp; omega), if_neg (by simp), if_neg (by omega),
      if_neg (by simp), if_neg (by omega), if_neg (by simp), hchar _ (by omega)]

theorem decodeCharsFrom_encodeChars (start : Nat) (cs : List Char) :
    decodeCharsFrom start (encodeChars cs) = .ok cs := by
  induction cs generalizing start with
  | nil => rfl
  | cons c rest ih =>
    rw [encodeChars, List.flatMap_cons, decodeCharsFrom_encodeChar_append]
    rw [← encodeChars, ih]
    rfl

@[simp]
theorem decode_encode (s : String) : decode (encode s) = .ok s := by
  rw [decode, decodeChars, encode, decodeCharsFrom_encodeChars]
  exact congrArg Except.ok String.ofList_toList

theorem encode_injective {s t : String} (h : encode s = encode t) : s = t := by
  have hdecode := congrArg decode h
  simpa using hdecode

end CipherVault.Utf8
