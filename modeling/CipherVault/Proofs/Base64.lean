import CipherVault.Base64
import CipherVault.Proofs.Outcome
import CipherVault.Proofs.Utf8
/-!
# Base64 is canonical

A text decodes to given bytes exactly if it is their encoding.  Decoding works on the ASCII bytes of
a text, so the encoding is first put in that form; the last quantum, where padding and left-over
bits are, is settled apart from the whole quanta before it.
-/

namespace CipherVault.Base64

open Outcome

/-- The ASCII byte of the symbol for a six-bit value. -/
def symbolByte (value : Nat) : Byte :=
  UInt8.ofNat (symbol value).toNat

/-- The encoding as ASCII bytes. -/
def encodeBytes : Bytes → Bytes
  | [] => []
  | [a] => [symbolByte (a.toNat / 4), symbolByte (a.toNat % 4 * 16), padByte, padByte]
  | [a, b] =>
    [symbolByte (a.toNat / 4), symbolByte (a.toNat % 4 * 16 + b.toNat / 16),
      symbolByte (b.toNat % 16 * 4), padByte]
  | a :: b :: c :: rest =>
    symbolByte (a.toNat / 4) :: symbolByte (a.toNat % 4 * 16 + b.toNat / 16) ::
      symbolByte (b.toNat % 16 * 4 + c.toNat / 64) :: symbolByte (c.toNat % 64) :: encodeBytes rest

/-! ## The alphabet -/

theorem encodeChar_symbol : ∀ value < 64, Utf8.encodeChar (symbol value) = [symbolByte value] := by
  decide

theorem value?_symbolByte : ∀ value < 64, value? (symbolByte value) = some value := by
  decide

theorem symbolByte_ne_padByte : ∀ value < 64, symbolByte value ≠ padByte := by
  decide

private theorem symbolByte_of_value?_all :
    ∀ n < 256, ∀ value, value? (UInt8.ofNat n) = some value →
      value < 64 ∧ symbolByte value = UInt8.ofNat n := by
  intro n hn value hvalue
  have hall : ∀ n < 256, ((value? (UInt8.ofNat n)).all fun value =>
      decide (value < 64 ∧ symbolByte value = UInt8.ofNat n)) = true := by decide +kernel
  have h := hall n hn
  rw [hvalue] at h
  simpa using h

theorem symbolByte_of_value? {b : Byte} {value : Nat} (h : value? b = some value) :
    value < 64 ∧ symbolByte value = b := by
  have hb := symbolByte_of_value?_all b.toNat b.toNat_lt value
  rw [UInt8.ofNat_toNat] at hb
  exact hb h

theorem encode_eq_encodeBytes (bs : Bytes) : Utf8.encode (encode bs) = encodeBytes bs := by
  rw [encode, Utf8.encode, String.toList_ofList, Utf8.encodeChars]
  fun_induction encodeChars bs with
  | case1 => rfl
  | case2 a =>
    have ha := a.toNat_lt
    simp only [List.flatMap_cons, List.flatMap_nil, encodeBytes]
    rw [encodeChar_symbol _ (by omega), encodeChar_symbol _ (by omega)]
    rfl
  | case3 a b =>
    have ha := a.toNat_lt
    have hb := b.toNat_lt
    simp only [List.flatMap_cons, List.flatMap_nil, encodeBytes]
    rw [encodeChar_symbol _ (by omega), encodeChar_symbol _ (by omega),
      encodeChar_symbol _ (by omega)]
    rfl
  | case4 a b c rest ih =>
    have ha := a.toNat_lt
    have hb := b.toNat_lt
    have hc := c.toNat_lt
    simp only [List.flatMap_cons, encodeBytes, ih]
    rw [encodeChar_symbol _ (by omega), encodeChar_symbol _ (by omega),
      encodeChar_symbol _ (by omega), encodeChar_symbol _ (by omega)]
    rfl

theorem length_encodeBytes_mod (bs : Bytes) : (encodeBytes bs).length % 4 = 0 := by
  fun_induction encodeBytes bs with
  | case1 => rfl
  | case2 a => simp
  | case3 a b => simp
  | case4 a b c rest ih =>
    simp only [List.length_cons]
    omega

theorem encodeBytes_eq_nil {bs : Bytes} (h : encodeBytes bs = []) : bs = [] := by
  match bs with
  | [] => rfl
  | [_] => simp [encodeBytes] at h
  | [_, _] => simp [encodeBytes] at h
  | _ :: _ :: _ :: _ => simp [encodeBytes] at h

/-- Three bytes put together from four six-bit values encode to the symbols of the values. -/
theorem encodeBytes_ofValues {v0 v1 v2 v3 : Nat} (h0 : v0 < 64) (h1 : v1 < 64) (h2 : v2 < 64)
    (h3 : v3 < 64) (rest : Bytes) :
    encodeBytes (UInt8.ofNat (v0 * 4 + v1 / 16) :: UInt8.ofNat (v1 % 16 * 16 + v2 / 4) ::
        UInt8.ofNat (v2 % 4 * 64 + v3) :: rest) =
      symbolByte v0 :: symbolByte v1 :: symbolByte v2 :: symbolByte v3 :: encodeBytes rest := by
  have ha : v0 * 4 + v1 / 16 < 256 := by omega
  have hb : v1 % 16 * 16 + v2 / 4 < 256 := by omega
  have hc : v2 % 4 * 64 + v3 < 256 := by omega
  have hv0 : (v0 * 4 + v1 / 16) / 4 = v0 := by omega
  have hv1 : (v0 * 4 + v1 / 16) % 4 * 16 + (v1 % 16 * 16 + v2 / 4) / 16 = v1 := by omega
  have hv2 : (v1 % 16 * 16 + v2 / 4) % 16 * 4 + (v2 % 4 * 64 + v3) / 64 = v2 := by omega
  have hv3 : (v2 % 4 * 64 + v3) % 64 = v3 := by omega
  rw [encodeBytes, UInt8.toNat_ofNat_of_lt' ha, UInt8.toNat_ofNat_of_lt' hb,
    UInt8.toNat_ofNat_of_lt' hc, hv0, hv1, hv2, hv3]

/-- Two bytes put together from three six-bit values that leave no bits over. -/
theorem encodeBytes_ofThreeValues {v0 v1 v2 : Nat} (h0 : v0 < 64) (h1 : v1 < 64) (h2 : v2 < 64)
    (hleft : v2 % 4 = 0) :
    encodeBytes [UInt8.ofNat (v0 * 4 + v1 / 16), UInt8.ofNat (v1 % 16 * 16 + v2 / 4)] =
      [symbolByte v0, symbolByte v1, symbolByte v2, padByte] := by
  have ha : v0 * 4 + v1 / 16 < 256 := by omega
  have hb : v1 % 16 * 16 + v2 / 4 < 256 := by omega
  have hv0 : (v0 * 4 + v1 / 16) / 4 = v0 := by omega
  have hv1 : (v0 * 4 + v1 / 16) % 4 * 16 + (v1 % 16 * 16 + v2 / 4) / 16 = v1 := by omega
  have hv2 : (v1 % 16 * 16 + v2 / 4) % 16 * 4 = v2 := by omega
  rw [encodeBytes, UInt8.toNat_ofNat_of_lt' ha, UInt8.toNat_ofNat_of_lt' hb, hv0, hv1, hv2]

/-- One byte put together from two six-bit values that leave no bits over. -/
theorem encodeBytes_ofTwoValues {v0 v1 : Nat} (h0 : v0 < 64) (h1 : v1 < 64)
    (hleft : v1 % 16 = 0) :
    encodeBytes [UInt8.ofNat (v0 * 4 + v1 / 16)] =
      [symbolByte v0, symbolByte v1, padByte, padByte] := by
  have ha : v0 * 4 + v1 / 16 < 256 := by omega
  have hv0 : (v0 * 4 + v1 / 16) / 4 = v0 := by omega
  have hv1 : (v0 * 4 + v1 / 16) % 4 * 16 = v1 := by omega
  rw [encodeBytes, UInt8.toNat_ofNat_of_lt' ha, hv0, hv1]

private theorem ofNat_eq_of_eq {n : Nat} {b : Byte} (h : n = b.toNat) : UInt8.ofNat n = b := by
  rw [h, UInt8.ofNat_toNat]

/-! ## The last quantum -/

/-- What is read of the last quantum is its symbols, then its padding, which starts no earlier than
its third byte. -/
theorem lastSymbols_sound {offset index : Nat} {quantum : Bytes} {symbols : List (Byte × Nat)}
    {pads : Nat} (h : lastSymbols offset index quantum = .ok (symbols, pads)) :
    quantum = symbols.map (fun s => symbolByte s.2) ++ List.replicate pads padByte ∧
      (∀ s ∈ symbols, s.2 < 64) ∧ (pads = 0 ∨ 2 ≤ index + symbols.length) := by
  induction quantum generalizing index symbols pads with
  | nil =>
    simp only [lastSymbols, Except.ok.injEq, Prod.mk.injEq] at h
    obtain ⟨rfl, rfl⟩ := h
    simp
  | cons b rest ih =>
    rw [lastSymbols] at h
    split at h
    · next hpad =>
      split at h
      · cases h
      next hindex =>
      split at h
      · next hrest =>
        cases h
        have hreplicate : rest = List.replicate rest.length padByte := by
          rw [List.eq_replicate_iff]
          exact ⟨rfl, fun c hc => by simpa using List.all_eq_true.mp hrest c hc⟩
        refine ⟨?_, by simp, .inr (Nat.not_lt.mp hindex)⟩
        rw [List.map_nil, List.nil_append, List.replicate_succ, ← hreplicate, hpad]
      · cases h
    · split at h
      · cases h
      · next value hvalue =>
        obtain ⟨⟨more, count⟩, hmore, heq⟩ := map_eq_ok.mp h
        cases heq
        obtain ⟨hquantum, hsmall, hstart⟩ := ih hmore
        obtain ⟨hlt, hsymbol⟩ := symbolByte_of_value? hvalue
        refine ⟨?_, ?_, ?_⟩
        · rw [List.map_cons, List.cons_append, hsymbol, ← hquantum]
        · rintro s (_ | ⟨_, hs⟩)
          · exact hlt
          · exact hsmall s hs
        · simp only [List.length_cons]
          omega

/-- The left-over bits of an accepted last quantum are zero, so its bytes encode to its symbols. -/
theorem decodeLast_sound {offset : Nat} {quantum bs : Bytes} (hlength : quantum.length ≤ 4)
    (h : decodeLast offset quantum = .ok bs) : quantum = encodeBytes bs := by
  obtain ⟨⟨symbols, pads⟩, hsymbols, hbytes⟩ := bind_eq_ok.mp h
  obtain ⟨hquantum, hsmall, hstart⟩ := lastSymbols_sound hsymbols
  dsimp only at hbytes
  split at hbytes
  · cases hbytes
    have hpads : pads = 0 := by simpa using hstart
    simpa [hpads, encodeBytes] using hquantum
  · cases hbytes
  · next b0 v0 b1 v1 =>
    split at hbytes
    · cases hbytes
    next hpads =>
    split at hbytes
    · cases hbytes
    next hleft =>
    cases hbytes
    have hpads : pads = 2 := Decidable.not_not.mp hpads
    have h0 : v0 < 64 := hsmall (b0, v0) (by simp)
    have h1 : v1 < 64 := hsmall (b1, v1) (by simp)
    rw [encodeBytes_ofTwoValues h0 h1 (Decidable.not_not.mp hleft), hquantum, hpads]
    rfl
  · next b0 v0 b1 v1 b2 v2 =>
    split at hbytes
    · cases hbytes
    next hpads =>
    split at hbytes
    · cases hbytes
    next hleft =>
    cases hbytes
    have hpads : pads = 1 := Decidable.not_not.mp hpads
    have h0 : v0 < 64 := hsmall (b0, v0) (by simp)
    have h1 : v1 < 64 := hsmall (b1, v1) (by simp)
    have h2 : v2 < 64 := hsmall (b2, v2) (by simp)
    rw [encodeBytes_ofThreeValues h0 h1 h2 (Decidable.not_not.mp hleft), hquantum, hpads]
    rfl
  · next b0 v0 b1 v1 b2 v2 b3 v3 more =>
    cases hbytes
    have hshort := congrArg List.length hquantum
    simp only [List.map_cons, List.cons_append, List.length_cons, List.length_append,
      List.length_map, List.length_replicate] at hshort
    have hmore : more = [] := List.length_eq_zero_iff.mp (by omega)
    have hpads : pads = 0 := by omega
    subst hmore
    have h0 : v0 < 64 := hsmall (b0, v0) (by simp)
    have h1 : v1 < 64 := hsmall (b1, v1) (by simp)
    have h2 : v2 < 64 := hsmall (b2, v2) (by simp)
    have h3 : v3 < 64 := hsmall (b3, v3) (by simp)
    rw [encodeBytes_ofValues h0 h1 h2 h3, hquantum, hpads]
    rfl

private theorem lastSymbols_symbolByte {offset index value : Nat} {rest : Bytes}
    (h : value < 64) :
    lastSymbols offset index (symbolByte value :: rest) =
      (lastSymbols offset (index + 1) rest).map fun (symbols, pads) =>
        ((symbolByte value, value) :: symbols, pads) := by
  rw [lastSymbols, if_neg (symbolByte_ne_padByte value h), value?_symbolByte value h]

theorem decodeLast_encodeBytes (offset : Nat) {bs : Bytes} (h : bs.length ≤ 3) :
    decodeLast offset (encodeBytes bs) = .ok bs := by
  match bs, h with
  | [], _ => rfl
  | [a], _ =>
    have ha := a.toNat_lt
    rw [decodeLast, encodeBytes, lastSymbols_symbolByte (by omega),
      lastSymbols_symbolByte (by omega)]
    simp only [lastSymbols, ↓reduceIte, Except.map, List.all_cons, List.all_nil,
      beq_self_eq_true, Bool.and_true, List.length_cons, List.length_nil]
    rw [if_neg (by decide)]
    simp only [ok_bind]
    rw [if_neg (by decide), if_neg (by omega), ofNat_eq_of_eq (b := a) (by omega)]
  | [a, b], _ =>
    have ha := a.toNat_lt
    have hb := b.toNat_lt
    rw [decodeLast, encodeBytes, lastSymbols_symbolByte (by omega),
      lastSymbols_symbolByte (by omega), lastSymbols_symbolByte (by omega)]
    simp only [lastSymbols, ↓reduceIte, Except.map, List.all_nil, List.length_nil]
    rw [if_neg (by decide)]
    simp only [ok_bind]
    rw [if_neg (by decide), if_neg (by omega), ofNat_eq_of_eq (b := a) (by omega),
      ofNat_eq_of_eq (b := b) (by omega)]
  | [a, b, c], _ =>
    have ha := a.toNat_lt
    have hb := b.toNat_lt
    have hc := c.toNat_lt
    rw [decodeLast, encodeBytes, lastSymbols_symbolByte (by omega),
      lastSymbols_symbolByte (by omega), lastSymbols_symbolByte (by omega),
      lastSymbols_symbolByte (by omega)]
    simp only [lastSymbols, encodeBytes, Except.map, ok_bind]
    rw [ofNat_eq_of_eq (b := a) (by omega), ofNat_eq_of_eq (b := b) (by omega),
      ofNat_eq_of_eq (b := c) (by omega)]

/-! ## Whole texts -/

private theorem symbolAt_eq_ok {offset : Nat} {b : Byte} {value : Nat}
    (h : symbolAt offset b = .ok value) : value < 64 ∧ symbolByte value = b := by
  rw [symbolAt] at h
  split at h
  · cases h
  · next found hfound =>
    cases h
    exact symbolByte_of_value? hfound

private theorem symbolAt_symbolByte {offset value : Nat} (h : value < 64) :
    symbolAt offset (symbolByte value) = .ok value := by
  rw [symbolAt, value?_symbolByte value h]

theorem decodeFrom_sound {offset : Nat} {text bs : Bytes}
    (h : decodeFrom offset text = .ok bs) : text = encodeBytes bs := by
  match text, h with
  | b0 :: b1 :: b2 :: b3 :: rest, h =>
    rw [decodeFrom] at h
    split at h
    · next hrest =>
      have hempty : rest = [] := List.isEmpty_iff.mp hrest
      subst hempty
      exact decodeLast_sound (by simp) h
    · obtain ⟨v0, hv0, h⟩ := bind_eq_ok.mp h
      obtain ⟨v1, hv1, h⟩ := bind_eq_ok.mp h
      obtain ⟨v2, hv2, h⟩ := bind_eq_ok.mp h
      obtain ⟨v3, hv3, h⟩ := bind_eq_ok.mp h
      obtain ⟨tail, htail, h⟩ := bind_eq_ok.mp h
      cases h
      obtain ⟨h0, rfl⟩ := symbolAt_eq_ok hv0
      obtain ⟨h1, rfl⟩ := symbolAt_eq_ok hv1
      obtain ⟨h2, rfl⟩ := symbolAt_eq_ok hv2
      obtain ⟨h3, rfl⟩ := symbolAt_eq_ok hv3
      rw [encodeBytes_ofValues h0 h1 h2 h3, decodeFrom_sound htail]
  | [], h => exact decodeLast_sound (by simp) h
  | [_], h => exact decodeLast_sound (by simp) h
  | [_, _], h => exact decodeLast_sound (by simp) h
  | [_, _, _], h => exact decodeLast_sound (by simp) h

theorem decodeFrom_encodeBytes (offset : Nat) (bs : Bytes) :
    decodeFrom offset (encodeBytes bs) = .ok bs := by
  fun_induction encodeBytes bs generalizing offset with
  | case1 => rfl
  | case2 a => exact decodeLast_encodeBytes offset (by simp : [a].length ≤ 3)
  | case3 a b => exact decodeLast_encodeBytes offset (by simp : [a, b].length ≤ 3)
  | case4 a b c rest ih =>
    have ha := a.toNat_lt
    have hb := b.toNat_lt
    have hc := c.toNat_lt
    rw [decodeFrom]
    split
    · next hempty =>
      have hrest : rest = [] := encodeBytes_eq_nil (List.isEmpty_iff.mp hempty)
      subst hrest
      exact decodeLast_encodeBytes offset (by simp : [a, b, c].length ≤ 3)
    · rw [symbolAt_symbolByte (by omega), symbolAt_symbolByte (by omega),
        symbolAt_symbolByte (by omega), symbolAt_symbolByte (by omega), ih]
      simp only [ok_bind]
      rw [ofNat_eq_of_eq (b := a) (by omega), ofNat_eq_of_eq (b := b) (by omega),
        ofNat_eq_of_eq (b := c) (by omega)]

theorem decodeBytes_eq_ok_iff {text bs : Bytes} :
    decodeBytes text = .ok bs ↔ text = encodeBytes bs := by
  constructor
  · intro h
    rw [decodeBytes] at h
    split at h
    · cases h
    · exact decodeFrom_sound h
  · intro heq
    subst heq
    have hstray : strayLast? (encodeBytes bs) = none := by
      rw [strayLast?, if_neg (by rw [length_encodeBytes_mod]; decide)]
    rw [decodeBytes, hstray]
    exact decodeFrom_encodeBytes 0 bs

/-- A text decodes to bytes exactly if it is what they encode to. -/
theorem decode_eq_ok_iff {text : String} {bs : Bytes} :
    decode text = .ok bs ↔ text = encode bs := by
  rw [decode, decodeBytes_eq_ok_iff, ← encode_eq_encodeBytes]
  exact ⟨Utf8.encode_injective, fun h => congrArg Utf8.encode h⟩

@[simp]
theorem decode_encode (bs : Bytes) : decode (encode bs) = .ok bs :=
  decode_eq_ok_iff.mpr rfl

end CipherVault.Base64
