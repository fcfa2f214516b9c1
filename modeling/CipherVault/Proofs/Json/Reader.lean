import CipherVault.Json.Record
import CipherVault.Proofs.Json.Scalar
/-!
# Reading undoes printing

A value that was built from texts, numbers, lists and records is read back from its compact form,
whatever follows it, as long as the bound on nested calls is twice the length of that form.  Every
field of a built record is found under its name, and scalars decode to what they were built from.
-/

namespace CipherVault.Json

/-- Values as they are built for printing: strings escaped and numerals natural. -/
inductive Written : Value → Prop where
  | null : Written .null
  | bool (value : Bool) : Written (.bool value)
  | ofNat (n : Nat) : Written (.ofNat n)
  | ofString (s : String) : Written (.ofString s)
  | array {elements : List Value} (h : ∀ value ∈ elements, Written value) :
    Written (.array elements)
  | ofMembers {members : List (String × Value)} (h : ∀ member ∈ members, Written member.2) :
    Written (.ofMembers members)

/-- A value is read back from its compact form in front of anything that ends a numeral. -/
def ReadsBack (value : Value) : Prop :=
  ∀ fuel rest, 2 * value.render.length ≤ fuel → endsNumeral rest →
    value? fuel (value.render ++ rest) = some (value, rest)

theorem endsNumeral_cons {b : Byte} (h : b = 44 ∨ b = 93 ∨ b = 125) (rest : Bytes) :
    endsNumeral (b :: rest) := by
  intro d hd
  cases hd
  rcases h with rfl | rfl | rfl <;> decide

@[simp]
theorem skipSpace_cons {b : Byte} (h : isSpace b = false) (rest : Bytes) :
    skipSpace (b :: rest) = b :: rest := by
  simp [skipSpace, h]

/-- A digit starts a numeral and nothing else. -/
theorem isDigit_starts {b : Byte} (h : isDigit b = true) :
    isSpace b = false ∧ b ≠ 34 ∧ b ≠ 91 ∧ b ≠ 93 ∧ b ≠ 123 ∧ b ≠ 110 ∧ b ≠ 116 ∧ b ≠ 102 := by
  have hall : ∀ n < 256, isDigit (UInt8.ofNat n) = true →
      isSpace (UInt8.ofNat n) = false ∧ UInt8.ofNat n ≠ 34 ∧ UInt8.ofNat n ≠ 91 ∧
        UInt8.ofNat n ≠ 93 ∧ UInt8.ofNat n ≠ 123 ∧ UInt8.ofNat n ≠ 110 ∧ UInt8.ofNat n ≠ 116 ∧
        UInt8.ofNat n ≠ 102 := by
    decide +kernel
  rw [← UInt8.ofNat_toNat (x := b)] at h ⊢
  exact hall b.toNat b.toNat_lt h

theorem render_ofNat (n : Nat) :
    ∃ first more, (Value.ofNat n).render = first :: more ∧ isDigit first = true := by
  obtain ⟨hdigits, -, first, more, hmore, -⟩ := Numeral.decimalDigits_spec n
  refine ⟨first, more, ?_, hdigits first (by simp [hmore])⟩
  simp [Value.ofNat, Value.render, Numeral.render, Numeral.ofNat, hmore]

/-- No compact form starts with white space or a closing bracket. -/
theorem Written.render_head {value : Value} (h : Written value) :
    ∃ b more, value.render = b :: more ∧ isSpace b = false ∧ b ≠ 93 := by
  cases h with
  | null => exact ⟨_, _, rfl, by decide, by decide⟩
  | bool value =>
    cases value with
    | true => exact ⟨_, _, rfl, by decide, by decide⟩
    | false => exact ⟨_, _, rfl, by decide, by decide⟩
  | ofNat n =>
    obtain ⟨first, more, hrender, hdigit⟩ := render_ofNat n
    have hstarts := isDigit_starts hdigit
    exact ⟨first, more, hrender, hstarts.1, hstarts.2.2.2.1⟩
  | ofString s => exact ⟨_, _, rfl, by decide, by decide⟩
  | @array elements h =>
    cases elements with
    | nil => exact ⟨_, _, rfl, by decide, by decide⟩
    | cons first rest => exact ⟨_, _, rfl, by decide, by decide⟩
  | @ofMembers members h =>
    cases members with
    | nil => exact ⟨_, _, rfl, by decide, by decide⟩
    | cons first rest => exact ⟨_, _, rfl, by decide, by decide⟩

/-! ## Lists of elements and of members -/

theorem elements?_render_append {first : Value} {more : List Value}
    (h : ∀ value ∈ first :: more, ReadsBack value) (rest : Bytes) {fuel : Nat}
    (hfuel : 2 * (first.render.length + (Value.renderElements more).length) ≤ fuel) :
    elements? fuel (first.render ++ (Value.renderElements more ++ rest)) =
      some (first :: more, rest) := by
  induction more generalizing first fuel with
  | nil =>
    obtain ⟨left, rfl⟩ : ∃ left, fuel = left + 1 :=
      ⟨fuel - 1, by simp only [Value.renderElements, List.length_singleton] at hfuel; omega⟩
    have hfirst := h first (by simp) left (93 :: rest)
      (by simp only [Value.renderElements, List.length_singleton] at hfuel; omega)
      (endsNumeral_cons (by simp) rest)
    rw [elements?.eq_def]
    simp [Value.renderElements, hfirst, isSpace]
  | cons second more ih =>
    simp only [Value.renderElements, List.cons_append, List.length_cons, List.length_append,
      List.append_assoc] at hfuel ⊢
    obtain ⟨left, rfl⟩ : ∃ left, fuel = left + 1 := ⟨fuel - 1, by omega⟩
    have hfirst := h first (by simp) left
      (44 :: (second.render ++ (Value.renderElements more ++ rest))) (by omega)
      (endsNumeral_cons (by simp) _)
    have hleft : 2 * (second.render.length + (Value.renderElements more).length) ≤ left := by omega
    have hmore := ih (fun value hvalue => h value (List.mem_cons_of_mem first hvalue)) hleft
    rw [elements?.eq_def]
    simp [hfirst, hmore, isSpace]

theorem memberName?_escape_append (name : String) (rest : Bytes) :
    memberName? (34 :: (escape name ++ 34 :: 58 :: rest)) = some (escape name, rest) := by
  simp [memberName?, stripFront?, isSpace, rawString_escape_append]

/-- The members of a record in the form in which it holds them. -/
def escapeNames (members : List (String × Value)) : List (Bytes × Value) :=
  members.map fun (name, value) => (escape name, value)

theorem members?_render_append (name : String) {first : Value} {more : List (String × Value)}
    (hfirst : ReadsBack first) (h : ∀ member ∈ more, ReadsBack member.2) (rest : Bytes)
    {fuel : Nat}
    (hfuel : 2 * (first.render.length + (Value.renderMembers (escapeNames more)).length) ≤ fuel) :
    members? fuel (34 :: (escape name ++ 34 :: 58 :: (first.render ++
        (Value.renderMembers (escapeNames more) ++ rest)))) =
      some ((escape name, first) :: escapeNames more, rest) := by
  induction more generalizing name first fuel with
  | nil =>
    simp only [escapeNames, List.map_nil, Value.renderMembers, List.length_singleton,
      List.cons_append, List.nil_append] at hfuel ⊢
    obtain ⟨left, rfl⟩ : ∃ left, fuel = left + 1 := ⟨fuel - 1, by omega⟩
    have hvalue := hfirst left (125 :: rest) (by omega) (endsNumeral_cons (by simp) rest)
    rw [members?.eq_def]
    simp [memberName?_escape_append, hvalue, isSpace]
  | cons second more ih =>
    obtain ⟨other, value⟩ := second
    simp only [escapeNames, List.map_cons, Value.renderMembers, List.cons_append, List.length_cons,
      List.length_append, List.append_assoc] at hfuel ⊢
    rw [← escapeNames] at hfuel ⊢
    obtain ⟨left, rfl⟩ : ∃ left, fuel = left + 1 := ⟨fuel - 1, by omega⟩
    have hvalue := hfirst left (44 :: 34 :: (escape other ++ 34 :: 58 :: (value.render ++
      (Value.renderMembers (escapeNames more) ++ rest)))) (by omega) (endsNumeral_cons (by simp) _)
    have hreads : ReadsBack value := h (other, value) (by simp)
    have hleft : 2 * (value.render.length + (Value.renderMembers (escapeNames more)).length) ≤
        left := by omega
    have hmore := ih other hreads
      (fun member hmember => h member (List.mem_cons_of_mem _ hmember)) hleft
    rw [members?.eq_def]
    simp [memberName?_escape_append, hvalue, hmore, isSpace]

/-! ## Values -/

theorem Written.fuel_pos {value : Value} (h : Written value) {fuel : Nat}
    (hfuel : 2 * value.render.length ≤ fuel) : ∃ left, fuel = left + 1 := by
  obtain ⟨b, more, hrender, -⟩ := h.render_head
  rw [hrender, List.length_cons] at hfuel
  exact ⟨fuel - 1, by omega⟩

theorem Written.readsBack {value : Value} (h : Written value) : ReadsBack value := by
  induction h with
  | null =>
    intro fuel rest hfuel _
    obtain ⟨left, rfl⟩ := Written.null.fuel_pos hfuel
    simp [value?.eq_def, Value.render, isSpace, stripFront?]
  | bool value =>
    intro fuel rest hfuel _
    obtain ⟨left, rfl⟩ := (Written.bool value).fuel_pos hfuel
    cases value with
    | true => simp [value?.eq_def, Value.render, isSpace, stripFront?]
    | false => simp [value?.eq_def, Value.render, isSpace, stripFront?]
  | ofNat n =>
    intro fuel rest hfuel hrest
    obtain ⟨left, rfl⟩ := (Written.ofNat n).fuel_pos hfuel
    obtain ⟨first, more, hrender, hdigit⟩ := render_ofNat n
    obtain ⟨hspace, h34, h91, -, h123, h110, h116, h102⟩ := isDigit_starts hdigit
    have hnumeral : numeral? (first :: (more ++ rest)) = some (Numeral.ofNat n, rest) := by
      rw [← List.cons_append, ← hrender]
      exact numeral?_ofNat_append n hrest
    rw [hrender, List.cons_append, value?.eq_def]
    simp [hspace, h34, h91, h123, h110, h116, h102, hnumeral, Value.ofNat]
  | ofString s =>
    intro fuel rest hfuel _
    obtain ⟨left, rfl⟩ := (Written.ofString s).fuel_pos hfuel
    simp [value?.eq_def, Value.ofString, Value.render, isSpace, rawString_escape_append]
  | @array elements h ih =>
    intro fuel rest hfuel _
    obtain ⟨left, rfl⟩ := (Written.array h).fuel_pos hfuel
    cases elements with
    | nil => simp [value?.eq_def, Value.render, isSpace, stripFront?]
    | cons first more =>
      obtain ⟨b, front, hfront, hspace, hclose⟩ := (h first (by simp)).render_head
      simp only [Value.render, List.cons_append, List.length_cons, List.length_append,
        List.append_assoc] at hfuel ⊢
      have hleft : 2 * (first.render.length + (Value.renderElements more).length) ≤ left := by omega
      have helements := elements?_render_append ih rest hleft
      have hopen : stripFront? [93] (skipSpace (first.render ++
          (Value.renderElements more ++ rest))) = none := by
        rw [hfront, List.cons_append, skipSpace_cons hspace, stripFront?, if_neg (Ne.symm hclose)]
      rw [value?.eq_def]
      simp [isSpace, hopen, helements]
  | @ofMembers members h ih =>
    intro fuel rest hfuel _
    obtain ⟨left, rfl⟩ := (Written.ofMembers h).fuel_pos hfuel
    cases members with
    | nil => simp [value?.eq_def, Value.ofMembers, Value.render, isSpace, stripFront?]
    | cons member more =>
      obtain ⟨name, first⟩ := member
      simp only [Value.ofMembers, List.map_cons, Value.render, List.cons_append, List.length_cons,
        List.length_append, List.append_assoc] at hfuel ⊢
      rw [← escapeNames] at hfuel ⊢
      have hleft : 2 * (first.render.length + (Value.renderMembers (escapeNames more)).length) ≤
          left := by omega
      have hmembers := members?_render_append name (ih (name, first) (by simp))
        (fun member hmember => ih member (List.mem_cons_of_mem _ hmember)) rest hleft
      rw [value?.eq_def]
      simp [isSpace, stripFront?, hmembers]

/-- The compact form of a value holds exactly that value. -/
theorem read?_render {value : Value} (h : Written value) : read? value.render = some value := by
  have hvalue := h.readsBack (2 * value.render.length + 2) [] (by omega) (by simp [endsNumeral])
  rw [List.append_nil] at hvalue
  rw [read?, hvalue]
  rfl

/-! ## Records and scalars -/

namespace Value

@[simp]
theorem string?_ofString (s : String) : (ofString s).string? = some s :=
  text?_escape s

@[simp]
theorem natural32?_ofNat (n : UInt32) : (ofNat n.toNat).natural32? = some n := by
  have hsmall : n.toNat < UInt32.size := n.toNat_lt
  simp [ofNat, natural32?, hsmall]

theorem namedMembers?_escapeNames (members : List (String × Value)) :
    namedMembers? (escapeNames members) = some members := by
  induction members with
  | nil => rfl
  | cons member members ih =>
    obtain ⟨name, value⟩ := member
    rw [namedMembers?] at ih ⊢
    simp [escapeNames, List.mapM_cons] at ih ⊢
    simp [ih]

/-- The fields of a built record are its members by name. -/
theorem fields?_ofMembers (names : List String) (members : List (String × Value)) :
    (ofMembers members).fields? names = names.mapM fun name => theMember? name members := by
  rw [ofMembers, fields?, ← escapeNames, namedMembers?_escapeNames]
  rfl

theorem list?_map {α : Type} {decode : Value → Option α} {build : α → Value}
    (h : ∀ a, decode (build a) = some a) (values : List α) :
    list? decode (.array (values.map build)) = some values := by
  rw [list?]
  induction values with
  | nil => rfl
  | cons a values ih => simp [h, ih]

end Value

end CipherVault.Json
