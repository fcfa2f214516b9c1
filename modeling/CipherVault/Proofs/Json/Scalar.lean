import CipherVault.Json.Reader
import CipherVault.Proofs.Utf8
/-!
# Strings and numerals survive JSON

The escaped form of a text is read up to its closing quote and spells the text, and the digits of a
natural number are read as far as they go and spell the number.
-/

namespace CipherVault.Json

/-! ## Strings -/

/-- Bytes that stand in a string as they are. -/
def isPlain (b : Byte) : Bool :=
  32 ≤ b && b != 34 && b != 92

theorem isPlain_encodeChar {c : Char} (hcontrol : ¬c.toNat < 32) (hquote : c.toNat ≠ 34)
    (hslash : c.toNat ≠ 92) : ∀ b ∈ Utf8.encodeChar c, isPlain b = true := by
  have hplain : ∀ n < 256, 32 ≤ n → n ≠ 34 → n ≠ 92 → isPlain (UInt8.ofNat n) = true := by
    decide +kernel
  have hmax := Utf8.toNat_lt c
  intro b hb
  simp only [Utf8.encodeChar] at hb
  split at hb
  · rw [List.mem_singleton] at hb
    subst hb
    exact hplain _ (by omega) (by omega) hquote hslash
  split at hb
  · simp only [List.mem_cons, List.not_mem_nil, or_false] at hb
    rcases hb with rfl | rfl <;> apply hplain <;> omega
  split at hb
  · simp only [List.mem_cons, List.not_mem_nil, or_false] at hb
    rcases hb with rfl | rfl | rfl <;> apply hplain <;> omega
  · simp only [List.mem_cons, List.not_mem_nil, or_false] at hb
    rcases hb with rfl | rfl | rfl | rfl <;> apply hplain <;> omega

/-- The two hexadecimal digits of a control character. -/
def controlDigits (n : Nat) : Bytes :=
  [UInt8.ofNat (Bytes.hexDigit (n / 16)).toNat, UInt8.ofNat (Bytes.hexDigit (n % 16)).toNat]

theorem hexQuad?_control {n : Nat} (h : n < 32) (rest : Bytes) :
    hexQuad? (48 :: 48 :: (controlDigits n ++ rest)) = some (n, rest) := by
  have hdigit : ∀ k : Nat, k < 16 →
      hexValue? (UInt8.ofNat (Bytes.hexDigit k).toNat) = some k := by
    decide
  have hzero : hexValue? 48 = some 0 := by decide
  simp only [controlDigits, List.cons_append, List.nil_append, hexQuad?, hzero,
    hdigit (n / 16) (by omega), hdigit (n % 16) (by omega), Option.bind_eq_bind, Option.bind_some]
  have hvalue : ((0 * 16 + 0) * 16 + n / 16) * 16 + n % 16 = n := by omega
  rw [hvalue]

private theorem encodeChar_ascii {c : Char} {n : Nat} (hc : c.toNat = n) (hn : n < 128) :
    Utf8.encodeChar c = [UInt8.ofNat n] := by
  simp [Utf8.encodeChar, hc, hn]

private theorem toNat_quote {c : Char} (h : c ≠ '"') : c.toNat ≠ 34 :=
  fun hc => h (Char.toNat_inj.mp hc)

private theorem toNat_backslash {c : Char} (h : c ≠ '\\') : c.toNat ≠ 92 :=
  fun hc => h (Char.toNat_inj.mp hc)

/-- The three forms in which a character is written: a short escape, a control character by its
number, or plain bytes. -/
theorem escapeChar_cases (c : Char) :
    (∃ kind byte, escapeChar c = [92, kind] ∧ shortEscape? kind = some byte ∧
      Utf8.encodeChar c = [byte]) ∨
    (c.toNat < 32 ∧ escapeChar c = [92, 117, 48, 48] ++ controlDigits c.toNat) ∨
    (escapeChar c = Utf8.encodeChar c ∧ ∀ b ∈ Utf8.encodeChar c, isPlain b = true) := by
  unfold escapeChar
  split
  · next h =>
    subst h
    exact .inl ⟨34, 34, rfl, by decide, by decide⟩
  · next hquote =>
    split
    · next h =>
      subst h
      exact .inl ⟨92, 92, rfl, by decide, by decide⟩
    · next hslash =>
      split
      · next h => exact .inl ⟨98, 8, rfl, by decide, encodeChar_ascii h (by decide)⟩
      split
      · next h => exact .inl ⟨116, 9, rfl, by decide, encodeChar_ascii h (by decide)⟩
      split
      · next h => exact .inl ⟨110, 10, rfl, by decide, encodeChar_ascii h (by decide)⟩
      split
      · next h => exact .inl ⟨102, 12, rfl, by decide, encodeChar_ascii h (by decide)⟩
      split
      · next h => exact .inl ⟨114, 13, rfl, by decide, encodeChar_ascii h (by decide)⟩
      split
      · next h => exact .inr (.inl ⟨h, rfl⟩)
      · next h =>
        exact .inr (.inr ⟨rfl,
          isPlain_encodeChar h (toNat_quote hquote) (toNat_backslash hslash)⟩)

theorem rawString_plain_append {bs : Bytes} (h : ∀ b ∈ bs, isPlain b = true) (rest : Bytes) :
    rawString (bs ++ rest) = (rawString rest).map fun (raw, rest) => (bs ++ raw, rest) := by
  induction bs with
  | nil => simp
  | cons b bs ih =>
    have hb := h b (by simp)
    simp only [isPlain, Bool.and_eq_true, decide_eq_true_eq, bne_iff_ne] at hb
    rw [List.cons_append, rawString.eq_def]
    simp only [if_neg hb.1.2, if_neg (UInt8.not_lt.mpr hb.1.1), if_pos hb.2,
      ih fun d hd => h d (List.mem_cons_of_mem b hd), Option.map_map]
    rfl

theorem shortEscape?_ne {kind byte : Byte} (h : shortEscape? kind = some byte) : kind ≠ 117 := by
  have hnone : shortEscape? 117 = none := by decide
  intro heq
  subst heq
  rw [hnone] at h
  cases h

theorem rawString_escapeChar_append (c : Char) (rest : Bytes) :
    rawString (escapeChar c ++ rest) =
      (rawString rest).map fun (raw, rest) => (escapeChar c ++ raw, rest) := by
  rcases escapeChar_cases c with ⟨kind, byte, hescape, hshort, -⟩ | ⟨hcontrol, hescape⟩ |
    ⟨hescape, hplain⟩
  · rw [hescape, List.cons_append, List.cons_append, List.nil_append, rawString.eq_def]
    simp [shortEscape?_ne hshort, hshort]
  · have hhex : ∀ n < 32, (controlDigits n).all (fun h => (hexValue? h).isSome) = true := by
      decide
    have hdigits := hhex _ hcontrol
    simp only [controlDigits, List.all_cons, List.all_nil, Bool.and_true, Bool.and_eq_true]
      at hdigits
    have hzero : (hexValue? 48).isSome = true := by decide
    rw [hescape]
    simp only [List.cons_append, List.nil_append, controlDigits]
    rw [rawString.eq_def]
    simp [hdigits.1, hdigits.2, hzero]
  · rw [hescape]
    exact rawString_plain_append hplain rest

/-- The raw form of a text ends at the quote behind it. -/
theorem rawString_escape_append (s : String) (rest : Bytes) :
    rawString (escape s ++ 34 :: rest) = some (escape s, rest) := by
  unfold escape
  induction s.toList with
  | nil =>
    rw [List.flatMap_nil, List.nil_append, rawString.eq_def]
    rfl
  | cons c cs ih =>
    rw [List.flatMap_cons, List.append_assoc, rawString_escapeChar_append, ih]
    rfl

theorem unescapeFuel_plain_append {bs : Bytes} (h : ∀ b ∈ bs, isPlain b = true) (fuel : Nat)
    (rest : Bytes) :
    unescapeFuel (bs.length + fuel) (bs ++ rest) = (unescapeFuel fuel rest).map (bs ++ ·) := by
  induction bs with
  | nil => simp
  | cons b bs ih =>
    have hb := h b (by simp)
    simp only [isPlain, Bool.and_eq_true, decide_eq_true_eq, bne_iff_ne] at hb
    rw [List.length_cons, Nat.add_right_comm, List.cons_append, unescapeFuel.eq_def]
    simp only [if_pos hb.2, ih fun d hd => h d (List.mem_cons_of_mem b hd), Option.map_map]
    rfl

/-- The raw form of a character spells its bytes; the fuel that is left still covers the rest. -/
theorem unescapeFuel_escapeChar_append (c : Char) (rest : Bytes) {fuel : Nat}
    (h : (escapeChar c ++ rest).length ≤ fuel) :
    ∃ left, rest.length ≤ left ∧ unescapeFuel fuel (escapeChar c ++ rest) =
      (unescapeFuel left rest).map (Utf8.encodeChar c ++ ·) := by
  rw [List.length_append] at h
  rcases escapeChar_cases c with ⟨kind, byte, hescape, hshort, hchar⟩ | ⟨hcontrol, hescape⟩ |
    ⟨hescape, hplain⟩
  · have hlength : (escapeChar c).length = 2 := by
      rw [hescape]
      rfl
    obtain ⟨left, rfl⟩ : ∃ left, fuel = left + 1 := ⟨fuel - 1, by omega⟩
    refine ⟨left, by omega, ?_⟩
    rw [hescape, hchar]
    simp [unescapeFuel, shortEscape?_ne hshort, hshort]
  · have hlength : (escapeChar c).length = 6 := by
      rw [hescape]
      rfl
    obtain ⟨left, rfl⟩ : ∃ left, fuel = left + 1 := ⟨fuel - 1, by omega⟩
    refine ⟨left, by omega, ?_⟩
    rw [hescape]
    simp only [List.cons_append, List.nil_append]
    rw [unescapeFuel, if_neg (by decide)]
    simp only [hexQuad?_control hcontrol, Option.bind_eq_bind, Option.bind_some]
    rw [if_neg (by decide), if_neg (by omega), if_neg (by omega), Char.ofNat_toNat]
  · rw [hescape] at h ⊢
    refine ⟨fuel - (Utf8.encodeChar c).length, by omega, ?_⟩
    have hfuel : fuel = (Utf8.encodeChar c).length + (fuel - (Utf8.encodeChar c).length) := by
      omega
    rw [← unescapeFuel_plain_append hplain, ← hfuel]

theorem unescapeFuel_escape (cs : List Char) {fuel : Nat}
    (h : (cs.flatMap escapeChar).length ≤ fuel) :
    unescapeFuel fuel (cs.flatMap escapeChar) = some (Utf8.encodeChars cs) := by
  induction cs generalizing fuel with
  | nil => simp [unescapeFuel, Utf8.encodeChars]
  | cons c cs ih =>
    rw [List.flatMap_cons] at h ⊢
    obtain ⟨left, hleft, hchar⟩ := unescapeFuel_escapeChar_append c _ h
    rw [hchar, ih hleft]
    rfl

@[simp]
theorem text?_escape (s : String) : text? (escape s) = some s := by
  rw [text?, unescape, escape, unescapeFuel_escape s.toList (Nat.le_refl _), Option.bind_some,
    ← Utf8.encode, Utf8.decode_encode]
  rfl

/-! ## Numerals -/

namespace Numeral

theorem decimalDigits_of_lt {n : Nat} (h : n < 10) : decimalDigits n = [UInt8.ofNat (48 + n)] := by
  have hdigit : ∀ n < 10, UInt8.ofNat (Nat.digitChar n).toNat = UInt8.ofNat (48 + n) := by
    decide
  rw [decimalDigits, Nat.toDigits_of_lt_base h, List.map_singleton, hdigit n h]

theorem decimalDigits_of_le {n : Nat} (h : 10 ≤ n) :
    decimalDigits n = decimalDigits (n / 10) ++ [UInt8.ofNat (48 + n % 10)] := by
  have hsmall : n % 10 < 10 := Nat.mod_lt n (by decide)
  have hlast := decimalDigits_of_lt hsmall
  rw [decimalDigits, Nat.toDigits_of_lt_base hsmall] at hlast
  rw [decimalDigits, Nat.toDigits_of_base_le (by decide) h, List.map_append, hlast, decimalDigits]

theorem isDigit_ofNat {n : Nat} (h : n < 10) : isDigit (UInt8.ofNat (48 + n)) = true := by
  have hall : ∀ n < 10, isDigit (UInt8.ofNat (48 + n)) = true := by decide
  exact hall n h

/-- The digits of a number in a form that inductions follow: the first one is zero for zero only. -/
theorem decimalDigits_spec (n : Nat) :
    (∀ b ∈ decimalDigits n, isDigit b = true) ∧ digitsValue (decimalDigits n) = n ∧
      ∃ first more, decimalDigits n = first :: more ∧ (first = 48 → n = 0) := by
  induction n using Nat.strongRecOn with
  | ind n ih =>
    by_cases hsmall : n < 10
    · have hfirst : ∀ n < 10, UInt8.ofNat (48 + n) = 48 → n = 0 := by decide
      have hvalue : ∀ n < 10, digitsValue [UInt8.ofNat (48 + n)] = n := by decide
      rw [decimalDigits_of_lt hsmall]
      refine ⟨?_, hvalue n hsmall, _, [], rfl, hfirst n hsmall⟩
      intro b hb
      rw [List.mem_singleton.mp hb]
      exact isDigit_ofNat hsmall
    · obtain ⟨hdigits, hvalue, first, more, hmore, hfirst⟩ := ih (n / 10) (by omega)
      have hlast : n % 10 < 10 := Nat.mod_lt n (by decide)
      have hbyte : (UInt8.ofNat (48 + n % 10)).toNat = 48 + n % 10 := by
        rw [UInt8.toNat_ofNat']
        omega
      rw [decimalDigits_of_le (Nat.not_lt.mp hsmall)]
      refine ⟨?_, ?_, first, more ++ [UInt8.ofNat (48 + n % 10)], by rw [hmore]; rfl, ?_⟩
      · intro b hb
        rcases List.mem_append.mp hb with hb | hb
        · exact hdigits b hb
        · rw [List.mem_singleton.mp hb]
          exact isDigit_ofNat hlast
      · rw [digitsValue, List.foldl_append, ← digitsValue, hvalue, List.foldl_cons, List.foldl_nil,
          hbyte]
        omega
      · intro hzero
        have := hfirst hzero
        omega

end Numeral

/-- Bytes before which a numeral ends. -/
def endsNumeral (rest : Bytes) : Prop :=
  ∀ b ∈ rest.head?, isDigit b = false ∧ b ≠ 46 ∧ b ≠ 101 ∧ b ≠ 69

theorem digits1?_append {digits rest : Bytes} (hdigits : ∀ b ∈ digits, isDigit b = true)
    (hne : digits ≠ []) (hrest : endsNumeral rest) :
    digits1? (digits ++ rest) = some (digits, rest) := by
  have hstop : ∀ b ∈ rest.head?, isDigit b = false := fun b hb => (hrest b hb).1
  have htake : (digits ++ rest).takeWhile isDigit = digits := by
    rw [List.takeWhile_append_of_pos hdigits]
    cases rest with
    | nil => simp
    | cons b rest => simp [hstop b rfl]
  have hdrop : (digits ++ rest).dropWhile isDigit = rest := by
    rw [List.dropWhile_append_of_pos hdigits]
    cases rest with
    | nil => simp
    | cons b rest => simp [hstop b rfl]
  rw [digits1?, htake, hdrop]
  cases digits with
  | nil => exact absurd rfl hne
  | cons first more => rfl

/-- A natural number is read up to its last digit. -/
theorem numeral?_ofNat_append (n : Nat) {rest : Bytes} (hrest : endsNumeral rest) :
    numeral? ((Numeral.ofNat n).render ++ rest) = some (Numeral.ofNat n, rest) := by
  obtain ⟨hdigits, hvalue, first, more, hmore, hfirst⟩ := Numeral.decimalDigits_spec n
  have hread := digits1?_append hdigits (by simp [hmore]) hrest
  have hsign : first ≠ 45 := by
    intro heq
    subst heq
    have := hdigits 45 (by simp [hmore])
    revert this
    decide
  have hwhole : wholePart? (Numeral.decimalDigits n ++ rest) =
      some (Numeral.decimalDigits n, rest) := by
    rw [wholePart?, hread, hmore]
    cases more with
    | nil => rfl
    | cons second more =>
      have hnonzero : first ≠ 48 := by
        intro hzero
        rw [hfirst hzero] at hmore
        cases hmore
      simp only [if_neg hnonzero]
  have hfraction : fractionPart? rest = some (none, rest) := by
    cases rest with
    | nil => rfl
    | cons b rest => rw [fractionPart?, if_neg (hrest b rfl).2.1]
  have hexponent : exponentPart? rest = some (none, rest) := by
    cases rest with
    | nil => rfl
    | cons b rest =>
      rw [exponentPart?, if_neg (not_or.mpr ⟨(hrest b rfl).2.2.1, (hrest b rfl).2.2.2⟩)]
  have hrender : (Numeral.ofNat n).render = Numeral.decimalDigits n := by
    simp [Numeral.render, Numeral.ofNat]
  rw [hmore, List.cons_append] at hwhole
  rw [hrender, hmore, List.cons_append, numeral?.eq_def]
  simp only [if_neg hsign, hwhole, hfraction, hexponent, Option.bind_eq_bind, Option.bind_some]
  rw [Numeral.ofNat, hmore]

@[simp]
theorem natural?_ofNat (n : Nat) : (Numeral.ofNat n).natural? = some n := by
  have hvalue := (Numeral.decimalDigits_spec n).2.1
  simp [Numeral.natural?, Numeral.ofNat, hvalue]

end CipherVault.Json
