import Worksheet.Proofs.Json.Literal

/-!
# Reading Documents Back

What a written tree is read back as.

A document is written without spaces, so the reader meets every value where
the writer put it, and the only question is where a number ends. It ends at
the comma or bracket that comes next, which never goes on with a number. The
bound on the number of calls is no obstacle either, because every level of
nesting writes at least one character of its own.

The tree that is read back is the tree that was written except for its
numbers: `reread` says which. An integer outside the 64-bit range becomes a
double, a double becomes whatever its digits are rounded to, and a value
without a spelling becomes `null`.

## Main definitions

* `reread`: What a tree is read back as.

## Theorems

* `readValue?_chars`: A written value is read in one piece.
* `parse?_render`: A document is read back whole.
-/

namespace Worksheet

namespace Json

/-- The value of a written number, and nothing for the text that a value without
    a spelling gets. -/
def valueOf (cs : List Char) : Json :=
  match readNumber? cs with
  | some (j, _) => j
  | none => .null

mutual

/-- What a tree is read back as. -/
def reread : Json → Json
  | .null => .null
  | .unreadable => .null
  | .bool b => .bool b
  | .int n => (Numeral.ofInt n).value
  | .float x => valueOf (floatChars x)
  | .string s => .string s
  | .array items => .array (rereadItems items)
  | .object fields => .object (rereadFields fields)

/-- What the items of an array are read back as. -/
def rereadItems : List Json → List Json
  | [] => []
  | j :: js => reread j :: rereadItems js

/-- What the fields of an object are read back as. -/
def rereadFields : List (String × Json) → List (String × Json)
  | [] => []
  | (name, j) :: fs => (name, reread j) :: rereadFields fs

end

theorem rereadItems_eq (js : List Json) : rereadItems js = js.map reread := by
  induction js with
  | nil => rfl
  | cons j js ih => rw [rereadItems, ih, List.map_cons]

theorem rereadFields_eq (fs : List (String × Json)) :
    rereadFields fs = fs.map fun f => (f.1, reread f.2) := by
  induction fs with
  | nil => rfl
  | cons f fs ih => rw [rereadFields, ih, List.map_cons]

theorem skipSpace_cons {c : Char} {cs : List Char} (h : isSpace c = false) :
    skipSpace (c :: cs) = c :: cs := by
  simp [skipSpace, h]

theorem not_isSpace_of_number {c : Char} (h : Text.isDigit c = true ∨ c = '-') :
    isSpace c = false := by
  by_contra hc
  simp only [isSpace, Bool.not_eq_false, Bool.or_eq_true, beq_iff_eq] at hc
  rcases hc with ((rfl | rfl) | rfl) | rfl <;> (revert h; decide)

theorem skipSpace_quoted (s : String) (rest : List Char) :
    skipSpace (quoted s ++ rest) = '"' :: (s.toList.flatMap escape ++ '"' :: rest) := by
  have : quoted s ++ rest = '"' :: (s.toList.flatMap escape ++ '"' :: rest) := by simp [quoted]
  rw [this]
  exact skipSpace_cons (by decide)

theorem itemChars_cons_cons (j j' : Json) (js : List Json) :
    itemChars (j :: j' :: js) = chars j ++ ',' :: itemChars (j' :: js) := by
  rw [itemChars]
  simp

theorem fieldChars_cons_cons (name : String) (j : Json) (f : String × Json)
    (fs : List (String × Json)) :
    fieldChars ((name, j) :: f :: fs) =
      quoted name ++ ':' :: (chars j ++ ',' :: fieldChars (f :: fs)) := by
  rw [fieldChars]
  simp

/-- Only a number begins with a digit or a minus sign. -/
theorem readValue?_number {c : Char} {cs : List Char} (fuel : Nat)
    (h : Text.isDigit c = true ∨ c = '-') :
    readValue? (fuel + 1) (c :: cs) = readNumber? (c :: cs) := by
  have hne : c ≠ 'n' ∧ c ≠ 't' ∧ c ≠ 'f' ∧ c ≠ '"' ∧ c ≠ '[' ∧ c ≠ '\x7b' := by
    refine ⟨?_, ?_, ?_, ?_, ?_, ?_⟩ <;> (rintro rfl; revert h; decide)
  rw [readValue?, skipSpace_cons (not_isSpace_of_number h)]
  split <;> simp_all

theorem Numeral.chars_eq_cons {n : Numeral} (h : n.IsFormed) :
    ∃ c cs, n.chars = c :: cs ∧ (Text.isDigit c = true ∨ c = '-') := by
  obtain ⟨d, ds, hds⟩ := List.exists_cons_of_ne_nil h.whole.1
  have hd : Text.isDigit d = true := h.whole.2 d (by simp [hds])
  unfold Numeral.chars
  cases n.negative with
  | true => exact ⟨'-', _, rfl, .inr rfl⟩
  | false => exact ⟨d, _, by simp only [hds]; rfl, .inl hd⟩

theorem readValue?_numeral {n : Numeral} (h : n.IsFormed) (fuel : Nat) {rest : List Char}
    (hrest : Ends rest) :
    readValue? (fuel + 1) (n.chars ++ rest) = some (n.value, rest) := by
  obtain ⟨c, cs, hchars, hc⟩ := Numeral.chars_eq_cons h
  rw [← readNumber?_chars h hrest, hchars, List.cons_append, readValue?_number fuel hc]

theorem readValue?_float (x : Float) (fuel : Nat) {rest : List Char} (hrest : Ends rest) :
    readValue? (fuel + 1) (floatChars x ++ rest) = some (valueOf (floatChars x), rest) := by
  rcases floatChars_eq x with hx | ⟨n, hn, hx⟩
  · rw [hx]
    rfl
  · have hvalue : valueOf n.chars = n.value := by
      have hread : readNumber? (n.chars ++ []) = some (n.value, []) :=
        readNumber?_chars hn (by simp [Ends])
      rw [List.append_nil] at hread
      simp only [valueOf, hread]
    rw [hx, hvalue]
    exact readValue?_numeral hn fuel hrest

/-- A value begins with neither a space nor a closing bracket. -/
theorem chars_eq_cons (j : Json) : ∃ c cs, chars j = c :: cs ∧ isSpace c = false ∧ c ≠ ']' := by
  have hnumeral : ∀ n : Numeral, n.IsFormed →
      ∃ c cs, n.chars = c :: cs ∧ isSpace c = false ∧ c ≠ ']' := by
    intro n hn
    obtain ⟨c, cs, hcs, hc⟩ := Numeral.chars_eq_cons hn
    exact ⟨c, cs, hcs, not_isSpace_of_number hc, by rintro rfl; revert hc; decide⟩
  cases j with
  | null => exact ⟨'n', _, rfl, by decide, by decide⟩
  | unreadable => exact ⟨'n', _, rfl, by decide, by decide⟩
  | bool b => cases b <;> exact ⟨_, _, rfl, by decide, by decide⟩
  | int n =>
    rw [chars, ← Numeral.chars_ofInt]
    exact hnumeral _ (Numeral.isFormed_ofInt n)
  | float x =>
    rw [chars]
    rcases floatChars_eq x with hx | ⟨n, hn, hx⟩
    · exact ⟨'n', _, hx, by decide, by decide⟩
    · rw [hx]
      exact hnumeral n hn
  | string s => exact ⟨'"', _, rfl, by decide, by decide⟩
  | array items => exact ⟨'[', _, by rw [chars], by decide, by decide⟩
  | object fields => exact ⟨'\x7b', _, by rw [chars], by decide, by decide⟩

theorem readItems?_last {fuel : Nat} {cs rest : List Char} {j : Json}
    (h : readValue? fuel cs = some (j, ']' :: rest)) :
    readItems? (fuel + 1) cs = some ([j], rest) := by
  rw [readItems?, h]
  rfl

theorem readItems?_cons {fuel : Nat} {cs rest rest' : List Char} {j : Json} {js : List Json}
    (h : readValue? fuel cs = some (j, ',' :: rest))
    (htail : readItems? fuel rest = some (js, rest')) :
    readItems? (fuel + 1) cs = some (j :: js, rest') := by
  have hspace : skipSpace (',' :: rest) = ',' :: rest := skipSpace_cons (by decide)
  simp only [readItems?, h, hspace, htail, Option.map_some]

theorem readFields?_last {fuel : Nat} {name : String} {cs rest : List Char} {j : Json}
    (h : readValue? fuel cs = some (j, '\x7d' :: rest)) :
    readFields? (fuel + 1) (quoted name ++ ':' :: cs) = some ([(some name, j)], rest) := by
  have hname : readName? (name.toList.flatMap escape ++ '"' :: ':' :: cs) =
      some (some name, ':' :: cs) := readName?_quoted name _
  have hquote := skipSpace_quoted name (':' :: cs)
  have hcolon : skipSpace (':' :: cs) = ':' :: cs := skipSpace_cons (by decide)
  have hbrace : skipSpace ('\x7d' :: rest) = '\x7d' :: rest := skipSpace_cons (by decide)
  simp only [readFields?, hquote, hname, hcolon, h, hbrace]

theorem readFields?_cons {fuel : Nat} {name : String} {cs rest rest' : List Char} {j : Json}
    {fs : List (Option String × Json)} (h : readValue? fuel cs = some (j, ',' :: rest))
    (htail : readFields? fuel rest = some (fs, rest')) :
    readFields? (fuel + 1) (quoted name ++ ':' :: cs) = some ((some name, j) :: fs, rest') := by
  have hname : readName? (name.toList.flatMap escape ++ '"' :: ':' :: cs) =
      some (some name, ':' :: cs) := readName?_quoted name _
  have hquote := skipSpace_quoted name (':' :: cs)
  have hcolon : skipSpace (':' :: cs) = ':' :: cs := skipSpace_cons (by decide)
  have hcomma : skipSpace (',' :: rest) = ',' :: rest := skipSpace_cons (by decide)
  simp only [readFields?, hquote, hname, hcolon, h, hcomma, htail, Option.map_some]

theorem objectOf_map (fs : List (String × Json)) :
    objectOf (fs.map fun f => (some f.1, f.2)) = .object fs := by
  have : ((fs.map fun f => (some f.1, f.2)).mapM fun f : Option String × Json =>
      f.1.map fun name => (name, f.2)) = some fs := by
    induction fs with
    | nil => rfl
    | cons f fs ih => simp [List.map_cons, List.mapM_cons, ih]
  rw [objectOf, this]

theorem ends_cons {c : Char} {cs : List Char}
    (h : Text.isDigit c = false ∧ c ≠ '.' ∧ c ≠ 'e' ∧ c ≠ 'E') : Ends (c :: cs) := by
  rintro d hd
  cases hd
  exact h

mutual

/-- A written value is read in one piece. -/
theorem readValue?_chars : ∀ (j : Json) (fuel : Nat) (rest : List Char),
    2 * (chars j).length ≤ fuel → Ends rest →
      readValue? fuel (chars j ++ rest) = some (reread j, rest)
  | j, 0, rest, hfuel, _ => by
    obtain ⟨c, cs, hcs, -⟩ := chars_eq_cons j
    rw [hcs, List.length_cons] at hfuel
    omega
  | .null, fuel + 1, rest, _, _ => rfl
  | .unreadable, fuel + 1, rest, _, _ => rfl
  | .bool true, fuel + 1, rest, _, _ => rfl
  | .bool false, fuel + 1, rest, _, _ => rfl
  | .int n, fuel + 1, rest, _, hrest => by
    rw [chars, reread, ← Numeral.chars_ofInt]
    exact readValue?_numeral (Numeral.isFormed_ofInt n) fuel hrest
  | .float x, fuel + 1, rest, _, hrest => by
    rw [chars, reread]
    exact readValue?_float x fuel hrest
  | .string s, fuel + 1, rest, _, _ => by
    have htext : readText? (s.toList.flatMap escape ++ '"' :: rest) = some (some s, rest) :=
      readText?_quoted s rest
    simp only [chars, reread, readValue?, skipSpace_quoted, htext, Option.map_some]
  | .array [], fuel + 1, rest, _, _ => rfl
  | .array (j :: js), fuel + 1, rest, hfuel, hrest => by
    have hitems := readItems?_itemChars j js fuel rest (by
      rw [chars, List.length_cons] at hfuel
      omega)
    -- What comes after the bracket is a value, so the array is not taken for an empty one.
    have hfirst : ∃ c cs, itemChars (j :: js) ++ rest = c :: cs ∧ isSpace c = false ∧ c ≠ ']' := by
      obtain ⟨c, cs, hcs, hc⟩ := chars_eq_cons j
      cases js with
      | nil => exact ⟨c, _, by rw [itemChars, hcs]; rfl, hc⟩
      | cons j' js => exact ⟨c, _, by rw [itemChars_cons_cons, hcs]; rfl, hc⟩
    obtain ⟨c, cs, hcs, hspace, hbracket⟩ := hfirst
    rw [hcs] at hitems
    have hopen : skipSpace ('[' :: c :: cs) = '[' :: c :: cs := skipSpace_cons (by decide)
    have hnext : skipSpace (c :: cs) = c :: cs := skipSpace_cons hspace
    rw [chars, List.cons_append, hcs, readValue?, hopen]
    simp only [hnext]
    split
    · simp_all
    · simp_all [reread]
  | .object [], fuel + 1, rest, _, _ => rfl
  | .object ((name, j) :: fs), fuel + 1, rest, hfuel, hrest => by
    have hfields := readFields?_fieldChars name j fs fuel rest (by
      rw [chars, List.length_cons] at hfuel
      omega)
    -- What comes after the brace is a name, so the object is not taken for an empty one.
    have hfirst : ∃ cs, fieldChars ((name, j) :: fs) ++ rest = '"' :: cs := by
      cases fs with
      | nil => exact ⟨_, by rw [fieldChars, quoted]; rfl⟩
      | cons f fs => exact ⟨_, by rw [fieldChars_cons_cons, quoted]; rfl⟩
    obtain ⟨cs, hcs⟩ := hfirst
    rw [hcs] at hfields
    have hopen : skipSpace ('\x7b' :: '"' :: cs) = '\x7b' :: '"' :: cs := skipSpace_cons (by decide)
    have hnext : skipSpace ('"' :: cs) = '"' :: cs := skipSpace_cons (by decide)
    rw [chars, List.cons_append, hcs, readValue?, hopen]
    simp only [hnext]
    change (readFields? fuel ('"' :: cs)).map (fun p => (objectOf p.1, p.2)) = _
    simp only [hfields, Option.map_some, objectOf_map, reread]

/-- The written items of an array are read in one piece, whatever follows the
    bracket. -/
theorem readItems?_itemChars : ∀ (j : Json) (js : List Json) (fuel : Nat) (rest : List Char),
    2 * (itemChars (j :: js)).length ≤ fuel →
      readItems? fuel (itemChars (j :: js) ++ rest) = some (rereadItems (j :: js), rest)
  | j, [], 0, rest, hfuel => by
    rw [itemChars, List.length_append] at hfuel
    simp at hfuel
  | j, [], fuel + 1, rest, hfuel => by
    have hfuel' : 2 * (chars j).length ≤ fuel := by
      rw [itemChars, List.length_append] at hfuel
      simp only [List.length_cons] at hfuel
      omega
    have hvalue := readValue?_chars j fuel (']' :: rest) hfuel' (ends_cons (by decide))
    rw [itemChars, List.append_assoc]
    exact readItems?_last hvalue
  | j, j' :: js, 0, rest, hfuel => by
    rw [itemChars_cons_cons, List.length_append] at hfuel
    simp at hfuel
  | j, j' :: js, fuel + 1, rest, hfuel => by
    have hsplit : 2 * (chars j).length ≤ fuel ∧ 2 * (itemChars (j' :: js)).length ≤ fuel := by
      rw [itemChars_cons_cons, List.length_append, List.length_cons] at hfuel
      omega
    have hvalue := readValue?_chars j fuel (',' :: (itemChars (j' :: js) ++ rest)) hsplit.1
      (ends_cons (by decide))
    have htail := readItems?_itemChars j' js fuel rest hsplit.2
    rw [itemChars_cons_cons, List.append_assoc]
    exact readItems?_cons hvalue htail

/-- The written fields of an object are read in one piece, whatever follows the
    brace. -/
theorem readFields?_fieldChars : ∀ (name : String) (j : Json) (fs : List (String × Json))
    (fuel : Nat) (rest : List Char), 2 * (fieldChars ((name, j) :: fs)).length ≤ fuel →
      readFields? fuel (fieldChars ((name, j) :: fs) ++ rest) =
        some ((rereadFields ((name, j) :: fs)).map fun f => (some f.1, f.2), rest)
  | name, j, [], 0, rest, hfuel => by
    rw [fieldChars, List.length_append] at hfuel
    simp at hfuel
  | name, j, [], fuel + 1, rest, hfuel => by
    have hfuel' : 2 * (chars j).length ≤ fuel := by
      simp only [fieldChars, List.length_append, List.length_cons] at hfuel
      omega
    have hvalue := readValue?_chars j fuel ('\x7d' :: rest) hfuel' (ends_cons (by decide))
    rw [fieldChars, List.append_assoc, List.cons_append, List.append_assoc]
    exact readFields?_last hvalue
  | name, j, f :: fs, 0, rest, hfuel => by
    rw [fieldChars_cons_cons, List.length_append] at hfuel
    simp at hfuel
  | name, j, (name', j') :: fs, fuel + 1, rest, hfuel => by
    have hsplit : 2 * (chars j).length ≤ fuel ∧
        2 * (fieldChars ((name', j') :: fs)).length ≤ fuel := by
      rw [fieldChars_cons_cons] at hfuel
      simp only [List.length_append, List.length_cons] at hfuel
      omega
    have hvalue := readValue?_chars j fuel (',' :: (fieldChars ((name', j') :: fs) ++ rest))
      hsplit.1 (ends_cons (by decide))
    have htail := readFields?_fieldChars name' j' fs fuel rest hsplit.2
    rw [fieldChars_cons_cons, List.append_assoc, List.cons_append, List.append_assoc]
    exact readFields?_cons hvalue htail

end

/-- A document is read back whole. -/
theorem parse?_render (j : Json) : parse? (render j) = some (reread j) := by
  have hread := readValue?_chars j (2 * (chars j).length + 2) [] (by omega) (by simp [Ends])
  rw [List.append_nil] at hread
  simp only [parse?, render, String.toList_ofList, parseChars?, hread]
  rfl

end Json

end Worksheet
