import DesignMarkup.Html

/-!
# `Proofs.Html.Escape` — escaped text and its reading

A reader of markup turns the entities back into their characters, in one pass from left to right. What
it makes of an escaped text is the text itself, and an escaped text holds no character that could end
it, neither between tags nor between quotes.

## Contents

* `unescape`, `unescapeText`: the reading of entities;
* `unescapeText_escape`: **reading undoes escaping**;
* `not_mem_escape`: the characters that no escaped text has.
-/

namespace DesignMarkup.Html

/-! ## Reading entities -/

/-- The five entities as their characters, everything else as it stands. -/
def unescape : List Char → List Char
  | '&' :: 'a' :: 'm' :: 'p' :: ';' :: rest => '&' :: unescape rest
  | '&' :: 'l' :: 't' :: ';' :: rest => '<' :: unescape rest
  | '&' :: 'g' :: 't' :: ';' :: rest => '>' :: unescape rest
  | '&' :: 'q' :: 'u' :: 'o' :: 't' :: ';' :: rest => '"' :: unescape rest
  | '&' :: '#' :: '0' :: '3' :: '9' :: ';' :: rest => '\'' :: unescape rest
  | c :: rest => c :: unescape rest
  | [] => []

/-- A text with its entities read. -/
def unescapeText (s : String) : String :=
  String.ofList (unescape s.toList)

theorem unescape_cons {c : Char} (h : c ≠ '&') (rest : List Char) :
    unescape (c :: rest) = c :: unescape rest := by
  rw [unescape]
  all_goals
    intro _ hc
    exact absurd hc h

/-- A character of its own is escaped as itself. -/
theorem escapeChar_of_ne {c : Char} (hamp : c ≠ '&') (hlt : c ≠ '<') (hgt : c ≠ '>') (hq : c ≠ '"')
    (ha : c ≠ '\'') : escapeChar c = [c] := by
  unfold escapeChar
  split
  · exact absurd rfl hamp
  · exact absurd rfl hlt
  · exact absurd rfl hgt
  · exact absurd rfl hq
  · exact absurd rfl ha
  · rfl

/-- One escaped character is read as itself, whatever follows. -/
theorem unescape_escapeChar (c : Char) (rest : List Char) :
    unescape (escapeChar c ++ rest) = c :: unescape rest := by
  by_cases hamp : c = '&'
  · subst hamp; rfl
  by_cases hlt : c = '<'
  · subst hlt; rfl
  by_cases hgt : c = '>'
  · subst hgt; rfl
  by_cases hq : c = '"'
  · subst hq; rfl
  by_cases ha : c = '\''
  · subst ha; rfl
  rw [escapeChar_of_ne hamp hlt hgt hq ha]
  exact unescape_cons hamp rest

theorem unescape_flatMap_escapeChar (cs : List Char) : unescape (cs.flatMap escapeChar) = cs := by
  induction cs with
  | nil => rfl
  | cons c cs ih => rw [List.flatMap_cons, unescape_escapeChar, ih]

theorem toList_escape (s : String) : (escape s).toList = s.toList.flatMap escapeChar :=
  String.toList_ofList

/-- **Reading undoes escaping.** -/
theorem unescapeText_escape (s : String) : unescapeText (escape s) = s := by
  rw [unescapeText, toList_escape, unescape_flatMap_escapeChar, String.ofList_toList]

/-! ## Characters that are not left -/

/-- The characters that end a text between tags or between quotes. -/
def isDelimiter (c : Char) : Bool :=
  c == '<' || c == '>' || c == '"' || c == '\''

theorem not_mem_of_all {cs : List Char} (h : cs.all (fun c => !isDelimiter c) = true) {d : Char}
    (hd : isDelimiter d = true) : d ∉ cs := by
  intro hm
  have hno := List.all_eq_true.mp h d hm
  rw [hd] at hno
  cases hno

/-- **No delimiter is left** in an escaped text. -/
theorem not_mem_escape {d : Char} (hd : isDelimiter d = true) (s : String) :
    d ∉ (escape s).toList := by
  rw [toList_escape, List.mem_flatMap]
  rintro ⟨c, -, hc⟩
  unfold escapeChar at hc
  split at hc
  case h_6 hamp hlt hgt hq ha =>
    obtain rfl := List.mem_singleton.mp hc
    simp only [isDelimiter, Bool.or_eq_true, beq_iff_eq] at hd
    rcases hd with ((h | h) | h) | h
    · exact hlt h
    · exact hgt h
    · exact hq h
    · exact ha h
  all_goals exact not_mem_of_all (by decide) hd hc

end DesignMarkup.Html
