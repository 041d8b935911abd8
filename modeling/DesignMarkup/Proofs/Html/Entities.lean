import DesignMarkup.Proofs.Html.Escape

/-!
# `Proofs.Html.Entities` — escaping as an encoding

Escaping goes character by character, so it respects the joining of texts, and it makes no character
shorter. A special character becomes an entity, which begins with an ampersand and has no other; all
others stay. So each ampersand of an escaped text begins an entity, also where the text itself looked like
one before, and a text is left as it is exactly if it has nothing special.

## Contents

* `entities`, `isSpecial`, `escapeChar_cases`: what becomes of a character;
* `length_le_flatMap_escapeChar`, `flatMap_escapeChar_eq_self_iff`: **texts that stay**;
* `entity_of_ampersand`: **each ampersand begins an entity**;
* `escape_faithful`: **escaping as an encoding**.
-/

namespace DesignMarkup.Html

/-! ## Characters -/

/-- The entities that escaping writes. -/
def entities : List String :=
  ["&amp;", "&lt;", "&gt;", "&quot;", "&#039;"]

/-- The characters that are escaped: those that could end a text, and the one that entities begin with. -/
def isSpecial (c : Char) : Bool :=
  c == '&' || isDelimiter c

/-- A special character becomes an entity, and any other stays. -/
theorem escapeChar_cases (c : Char) :
    (isSpecial c = true ∧ ∃ e ∈ entities, escapeChar c = e.toList) ∨ (isSpecial c = false ∧ escapeChar c = [c]) := by
  unfold escapeChar
  split
  · exact .inl ⟨by decide, "&amp;", by decide, rfl⟩
  · exact .inl ⟨by decide, "&lt;", by decide, rfl⟩
  · exact .inl ⟨by decide, "&gt;", by decide, rfl⟩
  · exact .inl ⟨by decide, "&quot;", by decide, rfl⟩
  · exact .inl ⟨by decide, "&#039;", by decide, rfl⟩
  · next hamp hlt hgt hq ha => exact .inr ⟨by simp_all [isSpecial, isDelimiter], rfl⟩

/-- An entity has one ampersand, at its beginning, and something after it. -/
theorem entity_shape {e : String} (h : e ∈ entities) :
    ∃ tail, e.toList = '&' :: tail ∧ '&' ∉ tail ∧ tail ≠ [] := by
  have hshape : ∀ e ∈ entities, e.toList = '&' :: e.toList.tail ∧ '&' ∉ e.toList.tail ∧ e.toList.tail ≠ [] := by
    decide
  exact ⟨e.toList.tail, hshape e h⟩

/-! ## Texts that stay -/

/-- Escaping makes no text shorter. -/
theorem length_le_flatMap_escapeChar (cs : List Char) : cs.length ≤ (cs.flatMap escapeChar).length := by
  induction cs with
  | nil => exact Nat.le_refl 0
  | cons c cs ih =>
    rw [List.flatMap_cons, List.length_append, List.length_cons]
    obtain ⟨-, e, he, hc⟩ | ⟨-, hc⟩ := escapeChar_cases c
    · obtain ⟨tail, htail, -⟩ := entity_shape he
      rw [hc, htail, List.length_cons]
      omega
    · rw [hc, List.length_singleton]
      omega

/-- **A text stays as it is** exactly if it has nothing special. -/
theorem flatMap_escapeChar_eq_self_iff (cs : List Char) :
    cs.flatMap escapeChar = cs ↔ ∀ c ∈ cs, isSpecial c = false := by
  induction cs with
  | nil => exact iff_of_true rfl (List.forall_mem_nil _)
  | cons c cs ih =>
    rw [List.flatMap_cons, List.forall_mem_cons]
    obtain ⟨hspecial, e, he, hc⟩ | ⟨hplain, hc⟩ := escapeChar_cases c
    · -- an entity is longer than its character, and what follows does not make up for it
      obtain ⟨tail, htail, -, hne⟩ := entity_shape he
      have hlonger : (escapeChar c ++ cs.flatMap escapeChar).length ≠ (c :: cs).length := by
        have hle := length_le_flatMap_escapeChar cs
        have hpos := List.length_pos_iff.mpr hne
        rw [hc, htail, List.length_append, List.length_cons, List.length_cons]
        omega
      exact iff_of_false (mt (congrArg List.length) hlonger) fun h => by rw [hspecial] at h; cases h.1
    · rw [hc, List.singleton_append, List.cons_inj_right, ih, and_iff_right hplain]

/-! ## Ampersands -/

/-- **Each ampersand begins an entity.** -/
theorem entity_of_ampersand (cs : List Char) {before after : List Char}
    (h : cs.flatMap escapeChar = before ++ '&' :: after) : ∃ e ∈ entities, e.toList <+: '&' :: after := by
  induction cs generalizing before with
  | nil => exact absurd h.symm (List.append_ne_nil_of_right_ne_nil before (List.cons_ne_nil _ _))
  | cons c cs ih =>
    rw [List.flatMap_cons] at h
    obtain ⟨between, -, hrest⟩ | ⟨within, hc, hrest⟩ := List.append_eq_append_iff.mp h
    · -- it stands in what follows the first character
      exact ih hrest
    · cases within with
      | nil =>
        have hthere : cs.flatMap escapeChar = [] ++ '&' :: after := hrest.symm
        exact ih hthere
      | cons first within =>
        -- it stands in the first character escaped, so that is an entity, and it stands at its beginning
        obtain rfl : '&' = first := (List.cons.inj hrest).1
        obtain ⟨-, e, he, hentity⟩ | ⟨hplain, hself⟩ := escapeChar_cases c
        · obtain ⟨tail, htail, hnot, -⟩ := entity_shape he
          rw [hentity, htail] at hc
          obtain ⟨-, hc⟩ | ⟨before', -, hc⟩ := List.cons_eq_append_iff.mp hc
          · exact ⟨e, he, cs.flatMap escapeChar, by rw [htail, ← hc, hrest]⟩
          · exact absurd (hc ▸ List.mem_append_right before' List.mem_cons_self) hnot
        · rw [hself] at hc
          have hamp : '&' ∈ [c] := hc ▸ List.mem_append_right before List.mem_cons_self
          rw [← List.mem_singleton.mp hamp] at hplain
          exact absurd hplain (by decide)

/-! ## The encoding -/

theorem escape_append (s t : String) : escape (s ++ t) = escape s ++ escape t := by
  rw [escape, String.toList_append, List.flatMap_append, String.ofList_append]
  rfl

theorem escape_injective {s t : String} (h : escape s = escape t) : s = t := by
  rw [← unescapeText_escape s, h, unescapeText_escape]

theorem escape_eq_self_iff (s : String) : escape s = s ↔ ∀ c ∈ s.toList, isSpecial c = false := by
  rw [← flatMap_escapeChar_eq_self_iff, ← toList_escape, String.toList_inj]

/-- **Escaping is a faithful encoding.** It respects the joining of texts. No delimiter is left, and each
ampersand begins one of five entities. Reading these as their characters, in one pass, gives the text back,
so different texts are escaped differently. Escaping leaves a text as it is, and so does escaping it twice
instead of once, exactly if the text has none of the five special characters. -/
theorem escape_faithful (s t : String) :
    escape (s ++ t) = escape s ++ escape t ∧
    (∀ c ∈ (escape s).toList, isDelimiter c = false) ∧
    (∀ before after, (escape s).toList = before ++ '&' :: after → ∃ e ∈ entities, e.toList <+: '&' :: after) ∧
    unescapeText (escape s) = s ∧
    (escape s = escape t ↔ s = t) ∧
    (escape s = s ↔ ∀ c ∈ s.toList, isSpecial c = false) ∧
    (escape (escape s) = escape s ↔ ∀ c ∈ s.toList, isSpecial c = false) := by
  refine ⟨escape_append s t, fun c hc => ?_, fun before after h => ?_, unescapeText_escape s,
    ⟨escape_injective, congrArg escape⟩, escape_eq_self_iff s, ?_⟩
  · exact Bool.eq_false_iff.mpr fun hd => not_mem_escape hd s hc
  · rw [toList_escape] at h
    exact entity_of_ampersand s.toList h
  · rw [← escape_eq_self_iff]
    exact ⟨escape_injective, congrArg escape⟩

/-- A text that looks like an entity is escaped all the same, and read back as it was. -/
example : escape "&lt; & <" = "&amp;lt; &amp; &lt;" ∧ unescapeText "&amp;lt; &amp; &lt;" = "&lt; & <" := by
  decide

end DesignMarkup.Html
