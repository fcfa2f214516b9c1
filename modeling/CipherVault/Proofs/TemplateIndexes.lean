import CipherVault.Proofs.PartialOperations
import CipherVault.Proofs.Template
import Mathlib.Data.List.Basic
/-!
# Indexes into a template

A scan by byte indexes takes a left brace off the text, looks up the byte at which the first brace
behind it stands, and cuts the text before and behind that byte.  A byte is looked up only within
the text, and a text is cut only between two characters; else the scan is aborted.  It never is, its
rounds come to an end, and it finds the templates that the scanner of characters finds.
-/

namespace CipherVault

namespace Utf8

theorem encodeChar_ne_nil (c : Char) : encodeChar c ≠ [] := by
  rw [encodeChar]
  split
  · exact List.cons_ne_nil _ _
  split
  · exact List.cons_ne_nil _ _
  split <;> exact List.cons_ne_nil _ _

theorem encodeChars_append (left right : List Char) :
    encodeChars (left ++ right) = encodeChars left ++ encodeChars right :=
  List.flatMap_append

theorem encodeChars_cons (c : Char) (cs : List Char) :
    encodeChars (c :: cs) = encodeChar c ++ encodeChars cs :=
  List.flatMap_cons

theorem encodeChars_eq_nil_iff {cs : List Char} : encodeChars cs = [] ↔ cs = [] := by
  cases cs with
  | nil => simp [encodeChars]
  | cons c cs => simp [encodeChars_cons, encodeChar_ne_nil]

end Utf8

namespace Template

variable {ε : Type}

/-- The characters whose bytes lie before an index and those whose bytes lie behind it, unless the
index is behind the end or within a character. -/
def splitAtByte? : List Char → (index : Nat) → Option (List Char × List Char)
  | cs, 0 => some ([], cs)
  | [], _ + 1 => none
  | c :: rest, index + 1 =>
    let width := (Utf8.encodeChar c).length
    if width ≤ index + 1 then
      (splitAtByte? rest (index + 1 - width)).map fun (before, behind) => (c :: before, behind)
    else none

/-- The index of the first byte that is a brace. -/
def braceIndex? : List Char → Option Nat
  | [] => none
  | c :: rest =>
    if isBrace c then some 0 else (braceIndex? rest).map ((Utf8.encodeChar c).length + ·)

/-- The groups that were found and those that the characters consist of, if there are four of them
in all.  Every round takes off one group, and `rounds` bounds their number. -/
def scanStrict : (rounds : Nat) → (found : List (List Char)) → List Char →
    Strict Unit (List (List Char))
  | _, found, [] => if found.length = 4 then pure found else throw ()
  | 0, _, _ :: _ => Strict.value none
  | rounds + 1, found, c :: inner =>
    if c ≠ '\x7b' then throw ()
    else match braceIndex? inner with
      | none => throw ()
      | some stop => do
        let byte ← Strict.value (Utf8.encodeChars inner)[stop]?
        if byte ≠ 0x7d ∨ stop = 0 then throw ()
        else
          let (content, _) ← Strict.value (splitAtByte? inner stop)
          if found.length + 1 > 4 then throw ()
          else
            let (_, rest) ← Strict.value (splitAtByte? inner (stop + 1))
            scanStrict rounds (found ++ [content]) rest

/-- The template that a text with the given tag is, by indexes. -/
def parseStrict (tag text : String) : Strict Unit Template := do
  match ← scanStrict text.toList.length [] text.toList with
  | [found, algorithm, keyAlias, payload] =>
    if String.ofList found = tag then
      pure ⟨String.ofList algorithm, String.ofList keyAlias, String.ofList payload⟩
    else throw ()
  | _ => throw ()

/-! ## Indexes are in range and between characters -/

theorem splitAtByte?_append (before behind : List Char) :
    splitAtByte? (before ++ behind) (Utf8.encodeChars before).length = some (before, behind) := by
  induction before with
  | nil => cases behind <;> rfl
  | cons c before ih =>
    have hwidth := List.length_pos_iff.mpr (Utf8.encodeChar_ne_nil c)
    rw [Utf8.encodeChars_cons, List.length_append, List.cons_append]
    obtain ⟨index, hindex⟩ := Nat.exists_eq_succ_of_ne_zero
      (Nat.ne_of_gt (Nat.add_pos_left hwidth (Utf8.encodeChars before).length))
    have hrest : index + 1 - (Utf8.encodeChar c).length = (Utf8.encodeChars before).length := by
      omega
    rw [hindex, Nat.succ_eq_add_one, splitAtByte?, if_pos (by omega), hrest, ih]
    rfl

/-- The sign takes three bytes, and there is no cut behind the first of them. -/
example : splitAtByte? ['€', '!'] 3 = some (['€'], ['!']) ∧ splitAtByte? ['€', '!'] 1 = none := by
  decide

/-- A brace that is found stands behind text without braces, whose bytes lead up to its index. -/
theorem exists_of_braceIndex?_eq_some {cs : List Char} {index : Nat}
    (h : braceIndex? cs = some index) :
    ∃ before brace behind, cs = before ++ brace :: behind ∧ isBrace brace = true ∧
      (∀ c ∈ before, isBrace c = false) ∧ index = (Utf8.encodeChars before).length := by
  induction cs generalizing index with
  | nil => cases h
  | cons c rest ih =>
    rw [braceIndex?] at h
    split at h
    · next hbrace =>
      cases h
      exact ⟨[], c, rest, rfl, hbrace, List.forall_mem_nil _, rfl⟩
    · next hplain =>
      obtain ⟨behindFirst, hindex, rfl⟩ := Option.map_eq_some_iff.mp h
      obtain ⟨before, brace, behind, rfl, hbrace, hbefore, rfl⟩ := ih hindex
      refine ⟨c :: before, brace, behind, rfl, hbrace, ?_, ?_⟩
      · exact List.forall_mem_cons.mpr ⟨Bool.eq_false_iff.mpr hplain, hbefore⟩
      · rw [Utf8.encodeChars_cons, List.length_append]

theorem isBrace_of_braceIndex?_eq_none {cs : List Char} (h : braceIndex? cs = none) :
    ∀ c ∈ cs, isBrace c = false := by
  induction cs with
  | nil => exact List.forall_mem_nil _
  | cons c rest ih =>
    rw [braceIndex?] at h
    split at h
    · cases h
    · next hplain =>
      exact List.forall_mem_cons.mpr
        ⟨Bool.eq_false_iff.mpr hplain, ih (Option.map_eq_none_iff.mp h)⟩

/-- At the index of a brace stands its one byte. -/
theorem byte_of_append {before behind : List Char} {brace : Char} {byte : Byte}
    (h : Utf8.encodeChar brace = [byte]) :
    (Utf8.encodeChars (before ++ brace :: behind))[(Utf8.encodeChars before).length]? =
      some byte := by
  rw [Utf8.encodeChars_append, Utf8.encodeChars_cons, h,
    List.getElem?_append_right (Nat.le_refl _), Nat.sub_self]
  rfl

/-! ## The scan by indexes is the scan by characters -/

/-- All groups together, if there are four. -/
def fourGroups (found : List (List Char)) : Option (List (List Char)) →
    Except Unit (List (List Char))
  | some more => if (found ++ more).length = 4 then .ok (found ++ more) else .error ()
  | none => .error ()

theorem fourGroups_of_many {found : List (List Char)} (h : 4 < found.length)
    (more : Option (List (List Char))) : fourGroups found more = .error () := by
  cases more with
  | none => rfl
  | some more =>
    rw [fourGroups, if_neg]
    rw [List.length_append]
    omega

theorem fourGroups_map_cons (found : List (List Char)) (content : List Char)
    (more : Option (List (List Char))) :
    fourGroups found (more.map (content :: ·)) = fourGroups (found ++ [content]) more := by
  cases more with
  | none => rfl
  | some more => rw [Option.map_some, fourGroups, fourGroups, List.append_cons]

theorem groups?_of_noBrace {content inner : List Char} (h : ∀ c ∈ inner, isBrace c = false) :
    groups? (some content) inner = none := by
  have hscan := groups?_append_of_noBrace content [] h
  rw [List.append_nil] at hscan
  rw [hscan, groups?]

theorem scanStrict_nil (rounds : Nat) (found : List (List Char)) :
    (scanStrict rounds found []).Yields (fourGroups found (groups? none [])) := by
  have hscan : scanStrict rounds found [] = if found.length = 4 then pure found else throw () := by
    cases rounds <;> rfl
  rw [hscan, groups?, fourGroups, List.append_nil]
  split
  · exact .pure _
  · exact .throw _

/-- A round that meets a brace behind plain text: a second left brace and an empty group end the
scan, and so does a fifth group. -/
theorem scanStrict_round {rounds : Nat} {found : List (List Char)} {content rest : List Char}
    {brace : Char} (hbrace : isBrace brace = true) (hcontent : ∀ c ∈ content, isBrace c = false)
    (hstop : braceIndex? (content ++ brace :: rest) = some (Utf8.encodeChars content).length)
    (hrest : (scanStrict rounds (found ++ [content]) rest).Yields
      (fourGroups (found ++ [content]) (groups? none rest))) :
    (scanStrict (rounds + 1) found ('\x7b' :: (content ++ brace :: rest))).Yields
      (fourGroups found (groups? none ('\x7b' :: (content ++ brace :: rest)))) := by
  rw [groups?, if_pos rfl, groups?_append_of_noBrace _ _ hcontent, List.append_nil, groups?]
  rw [scanStrict, if_neg (not_not_intro rfl), hstop]
  rw [isBrace, Bool.or_eq_true, beq_iff_eq, beq_iff_eq] at hbrace
  obtain rfl | rfl := hbrace
  · rw [if_pos rfl]
    refine .ok_bind (.value (byte_of_append rfl)) ?_
    rw [if_pos (.inl (by decide))]
    exact .throw _
  · rw [if_neg (by decide), if_pos rfl]
    refine .ok_bind (.value (byte_of_append rfl)) ?_
    by_cases hempty : content = []
    · subst hempty
      exact .throw _
    have hstop : (Utf8.encodeChars content).length ≠ 0 :=
      fun hzero => hempty (Utf8.encodeChars_eq_nil_iff.mp (List.length_eq_zero_iff.mp hzero))
    have hclosed : content ++ '\x7d' :: rest = (content ++ ['\x7d']) ++ rest := by simp
    have hbehind : (Utf8.encodeChars content).length + 1 =
        (Utf8.encodeChars (content ++ ['\x7d'])).length := by
      rw [Utf8.encodeChars_append, List.length_append]
      rfl
    rw [if_neg (by simpa using hstop), if_neg (by simpa using hempty), List.reverse_reverse,
      fourGroups_map_cons]
    refine .ok_bind (.value (splitAtByte?_append content _)) ?_
    dsimp only
    split
    · next hmany =>
      rw [fourGroups_of_many (by simpa using hmany)]
      exact .throw _
    · rw [hclosed, hbehind]
      exact .ok_bind (.value (splitAtByte?_append (content ++ ['\x7d']) rest)) hrest

/-- The induction is on the rounds: each takes a group, and so at least one character, off the
text. -/
theorem scanStrict_yields {rounds : Nat} {found : List (List Char)} {cs : List Char}
    (hrounds : cs.length ≤ rounds) :
    (scanStrict rounds found cs).Yields (fourGroups found (groups? none cs)) := by
  induction rounds generalizing found cs with
  | zero =>
    obtain rfl := List.length_eq_zero_iff.mp (Nat.le_zero.mp hrounds)
    exact scanStrict_nil 0 found
  | succ rounds ih =>
    cases cs with
    | nil => exact scanStrict_nil (rounds + 1) found
    | cons c inner =>
      by_cases hopen : c = '\x7b'
      case neg =>
        rw [scanStrict, groups?, if_pos hopen, if_neg hopen]
        exact .throw _
      subst hopen
      cases hstop : braceIndex? inner with
      | none =>
        rw [scanStrict, groups?, if_neg (not_not_intro rfl), if_pos rfl, hstop,
          groups?_of_noBrace (isBrace_of_braceIndex?_eq_none hstop)]
        exact .throw _
      | some stop =>
        obtain ⟨content, brace, rest, rfl, hbrace, hcontent, rfl⟩ :=
          exists_of_braceIndex?_eq_some hstop
        have hshorter : rest.length ≤ rounds := by
          simp only [List.length_cons, List.length_append] at hrounds
          omega
        exact scanStrict_round hbrace hcontent hstop (ih hshorter)

/-- No text aborts the scan by indexes, and it takes the same texts for templates. -/
theorem parseStrict_yields (tag text : String) :
    (parseStrict tag text).Yields ((parse? tag text).elim (.error ()) .ok) := by
  have hscan : (scanStrict text.toList.length [] text.toList).Yields _ :=
    scanStrict_yields (Nat.le_refl _)
  rw [parse?]
  split
  · next found algorithm keyAlias payload hgroups =>
    have hfour : fourGroups [] (some [found, algorithm, keyAlias, payload]) =
        .ok [found, algorithm, keyAlias, payload] := rfl
    rw [hgroups, hfour] at hscan
    refine .ok_bind hscan ?_
    by_cases htag : String.ofList found = tag
    · simp only [if_pos htag]
      exact .pure _
    · simp only [if_neg htag]
      exact .throw _
  · next hother =>
    have hnone : fourGroups [] (groups? none text.toList) = .error () := by
      cases hgroups : groups? none text.toList with
      | none => rfl
      | some groups =>
        rw [fourGroups, List.nil_append, if_neg]
        intro hfour
        obtain ⟨found, algorithm, keyAlias, payload, rfl⟩ := List.length_eq_four.mp hfour
        exact hother _ _ _ _ hgroups
    rw [hnone] at hscan
    exact .error_bind hscan _

end Template

end CipherVault
