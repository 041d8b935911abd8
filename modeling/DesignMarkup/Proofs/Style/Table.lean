import DesignMarkup.Style.Table

/-!
# `Proofs.Style.Table` — tables that grow

A name that the table does not have yet comes last, with its declarations as they are. Without
declarations nothing is recorded. The text of a table grows at its end, as its rules do.

## Contents

* `rules_record`, `names_record`: **the table after a new name**;
* `toCss_append`: the text of more rules.
-/

namespace DesignMarkup.StyleTable

theorem rules_record {t : StyleTable} {name : String} (h : name ∉ t.names) (d : Declarations) :
    (t.record name d).rules = t.rules ++ if d.isEmpty then [] else [(name, d)] := by
  unfold record
  split
  · rw [List.append_nil]
  · exact Entries.put_of_not_mem h

theorem names_record {t : StyleTable} {name : String} (h : name ∉ t.names) (d : Declarations) :
    (t.record name d).names = t.names ++ if d.isEmpty then [] else [name] := by
  rw [names, Entries.keys, rules_record h, List.map_append]
  split <;> rfl

/-- **The text of more rules** begins with that of the first of them. -/
theorem toCss_append (xs ys : List (String × Declarations)) :
    ∃ more, (StyleTable.mk (xs ++ ys)).toCss = (StyleTable.mk xs).toCss ++ more := by
  simp only [toCss, List.map_append]
  generalize (xs.map fun rule => ruleText rule.1 rule.2) = first
  generalize (ys.map fun rule => ruleText rule.1 rule.2) = second
  by_cases hfirst : first = []
  · refine ⟨"\n".intercalate second, ?_⟩
    rw [hfirst, List.nil_append, String.intercalate_nil, String.empty_append]
  · by_cases hsecond : second = []
    · refine ⟨"", ?_⟩
      rw [hsecond, List.append_nil, String.append_empty]
    · refine ⟨"\n" ++ "\n".intercalate second, ?_⟩
      rw [String.intercalate_append_of_ne_nil hfirst hsecond, String.append_assoc]

end DesignMarkup.StyleTable
