import CipherVault.Proofs.Rsa.Der
import CipherVault.Rsa.Encoding
/-!
# RSA keys are read from their encodings

A public key is read from its encoding and from nothing else, unless it is not valid or its modulus
is longer than a reader accepts.  A private key is read from every encoding that carries its
numbers, whichever precomputed values, version and trailer stand beside them; its own encoding is
one of these.
-/

namespace CipherVault.Rsa

open Der

theorem afterAlgorithm?_append {algorithm : Bytes}
    (h : element sequenceTag algorithmContent = some algorithm) (rest : Bytes) :
    afterAlgorithm? (algorithm ++ rest) = some rest := by
  have htag : isTag sequenceTag = true := by decide
  simp [afterAlgorithm?, content?_append htag h rest]

theorem afterAlgorithm?_eq_some_iff {bs rest : Bytes} :
    afterAlgorithm? bs = some rest ↔
      ∃ algorithm, element sequenceTag algorithmContent = some algorithm ∧
        bs = algorithm ++ rest := by
  constructor
  · intro h
    simp only [afterAlgorithm?, Option.bind_eq_bind, Option.bind_eq_some_iff] at h
    obtain ⟨⟨content, behind⟩, hcontent, h⟩ := h
    dsimp only at h
    split at h
    · next halgorithm =>
      cases h
      exact halgorithm ▸ (content?_eq_some_iff (by decide)).mp hcontent
    · cases h
  · rintro ⟨algorithm, halgorithm, rfl⟩
    exact afterAlgorithm?_append halgorithm rest

theorem wholeBits?_eq_some_iff {bs bits : Bytes} : wholeBits? bs = some bits ↔ bs = 0 :: bits := by
  cases bs with
  | nil => simp [wholeBits?]
  | cons unused rest =>
    rw [wholeBits?]
    split
    · next h => simp [h]
    · next h => simp [h]

theorem PublicKey.ofNumbers?_eq_some_iff {key : PublicKey} {modulus exponent : Nat} :
    ofNumbers? modulus exponent = some key ↔
      modulus = key.modulus ∧ exponent = key.exponent ∧ key.IsValid := by
  rw [ofNumbers?]
  constructor
  · intro h
    split at h
    · next hvalid =>
      cases h
      exact ⟨rfl, rfl, hvalid⟩
    · cases h
  · rintro ⟨rfl, rfl, hvalid⟩
    exact if_pos hvalid

theorem PrivateKey.ofNumbers?_self (key : PrivateKey) :
    ofNumbers? key.publicKey.modulus key.publicKey.exponent key.exponent key.factor1 key.factor2 =
      some key :=
  dif_pos key.valid

theorem PrivateKey.ofNumbers?_eq_some_iff {key : PrivateKey}
    {modulus publicExponent exponent factor1 factor2 : Nat} :
    ofNumbers? modulus publicExponent exponent factor1 factor2 = some key ↔
      modulus = key.publicKey.modulus ∧ publicExponent = key.publicKey.exponent ∧
        exponent = key.exponent ∧ factor1 = key.factor1 ∧ factor2 = key.factor2 := by
  constructor
  · intro h
    rw [ofNumbers?] at h
    split at h
    · cases h
      exact ⟨rfl, rfl, rfl, rfl, rfl⟩
    · cases h
  · rintro ⟨rfl, rfl, rfl, rfl, rfl⟩
    exact key.ofNumbers?_self

/-! ## Public keys -/

/-- What a reader makes of the encoding of a key. -/
theorem PublicKey.decode?_of_encode? {key : PublicKey} {bs : Bytes} (h : key.encode? = some bs) :
    decode? bs =
      if key.IsValid ∧ key.modulus < Nat.pow 2 maxPublicBits then some key else none := by
  simp only [encode?, Option.bind_eq_bind, Option.bind_eq_some_iff] at h
  obtain ⟨content, hcontent, encoded, hencoded, algorithm, halgorithm, bits, hbits, hbs⟩ := h
  have hbody := sole?_element (by decide) hbs
  have hrest := afterAlgorithm?_append halgorithm bits
  have hstring := sole?_element (by decide) hbits
  have hwhole := wholeBits?_eq_some_iff.mpr (Eq.refl (0 :: encoded))
  have hinner := sole?_element (by decide) hencoded
  have hnumbers : naturals? 2 content = some [key.modulus, key.exponent] :=
    naturals?_of_naturals hcontent
  simp only [decode?, hbody, hrest, hstring, hwhole, hinner, hnumbers, ofNumbers?,
    Option.bind_eq_bind, Option.bind_some]
  by_cases hsize : key.modulus < Nat.pow 2 maxPublicBits
  · simp only [hsize, and_true, ↓reduceIte]
  · simp only [hsize, and_false, ↓reduceIte]

/-- A public key is read from its encoding alone. -/
theorem PublicKey.decode?_eq_some_iff {key : PublicKey} {bs : Bytes} :
    decode? bs = some key ↔
      key.encode? = some bs ∧ key.IsValid ∧ key.modulus < Nat.pow 2 maxPublicBits := by
  constructor
  · intro h
    simp only [decode?, Option.bind_eq_bind, Option.bind_eq_some_iff] at h
    obtain ⟨body, hbody, rest, hrest, bits, hbits, encoded, hencoded, content, hcontent, numbers,
      hnumbers, h⟩ := h
    split at h
    · next modulus exponent =>
      split at h
      · next hsize =>
        obtain ⟨rfl, rfl, hvalid⟩ := ofNumbers?_eq_some_iff.mp h
        obtain ⟨algorithm, halgorithm, rfl⟩ := afterAlgorithm?_eq_some_iff.mp hrest
        obtain rfl := wholeBits?_eq_some_iff.mp hencoded
        obtain ⟨-, hwritten⟩ := naturals?_eq_some_iff.mp hnumbers
        have hbody := (sole?_eq_some_iff (by decide)).mp hbody
        have hbits := (sole?_eq_some_iff (by decide)).mp hbits
        have hcontent := (sole?_eq_some_iff (by decide)).mp hcontent
        refine ⟨?_, hvalid, hsize⟩
        simp only [encode?, hwritten, hcontent, halgorithm, hbits, hbody, Option.bind_eq_bind,
          Option.bind_some]
      · cases h
    · cases h
  · rintro ⟨hencode, hreadable⟩
    rw [decode?_of_encode? hencode, if_pos hreadable]

/-! ## Private keys -/

namespace PrivateKey

/-- What stands in the encoding of a private key beside its numbers: the version, the precomputed
values, and what follows the key. -/
structure Surplus where
  version : Nat
  exponent1 : Nat
  exponent2 : Nat
  coefficient : Nat
  trailer : Bytes

/-- The encoding of a key with the surplus as given. -/
def encodeWith? (key : PrivateKey) (surplus : Surplus) : Option Bytes := do
  let content ← naturals [0, key.publicKey.modulus, key.publicKey.exponent, key.exponent,
    key.factor1, key.factor2, surplus.exponent1, surplus.exponent2, surplus.coefficient]
  let inner ← element sequenceTag content
  let version ← natural surplus.version
  let algorithm ← element sequenceTag algorithmContent
  let encoded ← element octetStringTag inner
  element sequenceTag (version ++ (algorithm ++ (encoded ++ surplus.trailer)))

/-- The surplus that a key is written with, for the inverse of its second factor. -/
def surplus (key : PrivateKey) (coefficient : Nat) : Surplus where
  version := 0
  exponent1 := key.exponent1
  exponent2 := key.exponent2
  coefficient := coefficient
  trailer := []

/-- The one encoding that a key is written with. -/
theorem encode?_eq_some_iff {key : PrivateKey} {bs : Bytes} :
    key.encode? = some bs ↔
      ∃ coefficient, key.coefficient? = some coefficient ∧
        key.encodeWith? (key.surplus coefficient) = some bs := by
  have hbind : key.encode? =
      key.coefficient?.bind fun coefficient => key.encodeWith? (key.surplus coefficient) := by
    simp only [encode?, encodeWith?, surplus, List.append_nil, List.append_assoc,
      Option.bind_eq_bind]
  rw [hbind, Option.bind_eq_some_iff]

theorem ofContent?_eq_some_iff {key : PrivateKey} {content : Bytes} :
    ofContent? content = some key ↔
      ∃ exponent1 exponent2 coefficient, naturals [0, key.publicKey.modulus,
        key.publicKey.exponent, key.exponent, key.factor1, key.factor2, exponent1, exponent2,
        coefficient] = some content := by
  constructor
  · intro h
    simp only [ofContent?, Option.bind_eq_bind, Option.bind_eq_some_iff] at h
    obtain ⟨numbers, hnumbers, h⟩ := h
    split at h
    · next exponent1 exponent2 coefficient =>
      split at h
      · next hversion =>
        subst hversion
        obtain ⟨rfl, rfl, rfl, rfl, rfl⟩ := ofNumbers?_eq_some_iff.mp h
        exact ⟨exponent1, exponent2, coefficient, (naturals?_eq_some_iff.mp hnumbers).2⟩
      · cases h
    · cases h
  · rintro ⟨exponent1, exponent2, coefficient, hwritten⟩
    have hnumbers : naturals? 9 content = some [0, key.publicKey.modulus, key.publicKey.exponent,
        key.exponent, key.factor1, key.factor2, exponent1, exponent2, coefficient] :=
      naturals?_of_naturals hwritten
    simp only [ofContent?, hnumbers, ofNumbers?_self, ↓reduceIte, Option.bind_eq_bind,
      Option.bind_some]

/-- A private key is read from every encoding that carries its numbers, and from nothing else. -/
theorem decode?_eq_some_iff {key : PrivateKey} {bs : Bytes} :
    decode? bs = some key ↔
      ∃ surplus : Surplus, isTrailer surplus.version surplus.trailer = true ∧
        key.encodeWith? surplus = some bs := by
  constructor
  · intro h
    simp only [decode?, Option.bind_eq_bind, Option.bind_eq_some_iff] at h
    obtain ⟨body, hbody, ⟨version, rest⟩, hversion, rest', hrest, ⟨encoded, trailer⟩, hencoded,
      h⟩ := h
    dsimp only at hrest hencoded h
    split at h
    · next htrailer =>
      -- From the innermost part to the whole, what was read is what had been written there.
      obtain ⟨content, hcontent, h⟩ := Option.bind_eq_some_iff.mp h
      obtain ⟨exponent1, exponent2, coefficient, hwritten⟩ := ofContent?_eq_some_iff.mp h
      obtain ⟨octets, hoctets, rfl⟩ := (content?_eq_some_iff (by decide)).mp hencoded
      obtain ⟨algorithm, halgorithm, rfl⟩ := afterAlgorithm?_eq_some_iff.mp hrest
      obtain ⟨first, hfirst, rfl⟩ := natural?_eq_some_iff.mp hversion
      have hbody := (sole?_eq_some_iff (by decide)).mp hbody
      have hinner := (sole?_eq_some_iff (by decide)).mp hcontent
      refine ⟨⟨version, exponent1, exponent2, coefficient, trailer⟩, htrailer, ?_⟩
      simp only [encodeWith?, hwritten, hinner, hfirst, halgorithm, hoctets, hbody,
        Option.bind_eq_bind, Option.bind_some]
    · cases h
  · rintro ⟨⟨version, exponent1, exponent2, coefficient, trailer⟩, htrailer, h⟩
    dsimp only at htrailer
    simp only [encodeWith?, Option.bind_eq_bind, Option.bind_eq_some_iff] at h
    obtain ⟨content, hcontent, inner, hinner, first, hfirst, algorithm, halgorithm, encoded,
      hencoded, hbs⟩ := h
    have hbody := sole?_element (by decide) hbs
    have hversion := natural?_append hfirst (algorithm ++ (encoded ++ trailer))
    have hrest := afterAlgorithm?_append halgorithm (encoded ++ trailer)
    have hoctets := content?_append (by decide) hencoded trailer
    have hsole := sole?_element (by decide) hinner
    have hkey := ofContent?_eq_some_iff.mpr ⟨exponent1, exponent2, coefficient, hcontent⟩
    simp only [decode?, hbody, hversion, hrest, hoctets, htrailer, hsole, hkey, ↓reduceIte,
      Option.bind_eq_bind, Option.bind_some]

theorem decode?_of_encode? {key : PrivateKey} {bs : Bytes} (h : key.encode? = some bs) :
    decode? bs = some key := by
  obtain ⟨coefficient, -, hwritten⟩ := encode?_eq_some_iff.mp h
  have htrailer : isTrailer 0 [] = true := by decide
  exact decode?_eq_some_iff.mpr ⟨key.surplus coefficient, htrailer, hwritten⟩

end PrivateKey

end CipherVault.Rsa
