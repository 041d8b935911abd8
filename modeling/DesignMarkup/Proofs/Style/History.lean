import DesignMarkup.Proofs.Style.Table
import Mathlib.Data.List.Induction
import Mathlib.Data.List.Nodup

/-!
# `Proofs.Style.History` — what a table has after any records

Class names are recorded again and again, some of them with nothing to declare. What the table has in the end
can be read off the history without the tables in between: records without declarations do not count, the names
stand in the order in which they first come up among the others, and each has the declarations of its last one.

## Contents

* `get?_record`, `names_record_of_mem`, `nodup_names_record`: **what one record does**;
* `ofHistory`, `recordedNames`, `lastRecord?`: a history, and what can be read off it;
* `names_ofHistory`, `get?_ofHistory`, `ofHistory_effective`: **the table after a history**;
* `map_renderRule`: the rules of a table as text;
* `table_of_history`: **all of it together**.
-/

namespace DesignMarkup.StyleTable

/-! ## One record -/

section Record

variable {t : StyleTable} {name : String} {d : Declarations}

/-- Nothing is recorded without declarations. -/
theorem record_nil (t : StyleTable) (name : String) : t.record name [] = t :=
  rfl

theorem rules_record_of_ne_nil (h : d ≠ []) : (t.record name d).rules = Entries.put name d t.rules := by
  rw [record, if_neg (mt List.isEmpty_iff.mp h)]

/-- A name that is there keeps its place, and so do all others. -/
theorem names_record_of_mem (h : name ∈ t.names) (d : Declarations) : (t.record name d).names = t.names := by
  unfold record
  split
  · rfl
  · exact Entries.keys_put_of_mem h

/-- The name is bound to what it is recorded with, and no other binding changes. -/
theorem get?_record (other : String) (h : d ≠ []) :
    Entries.get? other (t.record name d).rules = if name = other then some d else Entries.get? other t.rules := by
  rw [rules_record_of_ne_nil h]
  split
  · next he => rw [he, Entries.get?_put_self]
  · next hne => exact Entries.get?_put_of_ne (Ne.symm hne)

/-- **A record keeps the names apart.** -/
theorem nodup_names_record (h : t.names.Nodup) (name : String) (d : Declarations) :
    (t.record name d).names.Nodup := by
  by_cases hmem : name ∈ t.names
  · rw [names_record_of_mem hmem]
    exact h
  · rw [names_record hmem]
    split
    · rw [List.append_nil]
      exact h
    · exact List.nodup_append_comm.mp (List.nodup_cons.mpr ⟨hmem, h⟩)

end Record

/-! ## Histories -/

/-- The table after a history of records, the first of them first. -/
def ofHistory (history : List (String × Declarations)) : StyleTable :=
  history.foldl (fun t r => t.record r.1 r.2) empty

/-- The records with declarations. -/
def effective (history : List (String × Declarations)) : List (String × Declarations) :=
  history.filter fun r => !r.2.isEmpty

/-- The names that are recorded with declarations, as often as they are. -/
def recordedNames (history : List (String × Declarations)) : List String :=
  (effective history).map (·.1)

/-- The declarations of the last record of a name that has any. -/
def lastRecord? (name : String) (history : List (String × Declarations)) : Option Declarations :=
  ((effective history).filter (·.1 == name)).getLast?.map (·.2)

section History

variable {history : List (String × Declarations)} {name : String} {d : Declarations}

theorem ofHistory_concat (history : List (String × Declarations)) (r : String × Declarations) :
    ofHistory (history ++ [r]) = (ofHistory history).record r.1 r.2 :=
  List.foldl_concat _ _ _ _

theorem effective_concat_nil (history : List (String × Declarations)) (name : String) :
    effective (history ++ [(name, [])]) = effective history := by
  rw [effective, List.filter_append, List.filter_cons_of_neg (by simp), List.filter_nil, List.append_nil]
  rfl

theorem effective_concat (h : d ≠ []) : effective (history ++ [(name, d)]) = effective history ++ [(name, d)] := by
  rw [effective, List.filter_append, List.filter_cons_of_pos (by simpa using h), List.filter_nil]
  rfl

theorem nodup_names_ofHistory (history : List (String × Declarations)) : (ofHistory history).names.Nodup := by
  induction history using List.reverseRecOn with
  | nil => exact List.nodup_nil
  | append_singleton history r ih =>
    rw [ofHistory_concat]
    exact nodup_names_record ih r.1 r.2

/-- **The names** are those recorded with declarations, where they first are. -/
theorem names_ofHistory (history : List (String × Declarations)) :
    (ofHistory history).names = (recordedNames history).eraseDups := by
  induction history using List.reverseRecOn with
  | nil => rfl
  | append_singleton history r ih =>
    obtain ⟨name, d⟩ := r
    rw [ofHistory_concat, recordedNames]
    by_cases hd : d = []
    · rw [hd, record_nil, effective_concat_nil, ih, recordedNames]
    · -- a name counts as new exactly if no earlier record with declarations has it
      have hmem : name ∈ (ofHistory history).names ↔ name ∈ recordedNames history := by
        rw [ih, List.mem_eraseDups]
      rw [effective_concat hd, List.map_append, ← recordedNames, List.eraseDups_append, ← ih, List.map_singleton,
        List.removeAll]
      by_cases hold : name ∈ recordedNames history
      · rw [names_record_of_mem (hmem.mpr hold), List.filter_cons_of_neg (by simpa using hold), List.filter_nil,
          List.eraseDups_nil, List.append_nil]
      · rw [names_record (mt hmem.mp hold), if_neg (mt List.isEmpty_iff.mp hd),
          List.filter_cons_of_pos (by simpa using hold)]
        rfl

/-- **Each name** is bound to what it was last recorded with. -/
theorem get?_ofHistory (name : String) (history : List (String × Declarations)) :
    Entries.get? name (ofHistory history).rules = lastRecord? name history := by
  induction history using List.reverseRecOn with
  | nil => rfl
  | append_singleton history r ih =>
    obtain ⟨own, d⟩ := r
    rw [ofHistory_concat, lastRecord?]
    by_cases hd : d = []
    · rw [hd, record_nil, effective_concat_nil, ih, lastRecord?]
    · rw [effective_concat hd, get?_record name hd, List.filter_append]
      by_cases hname : own = name
      · rw [if_pos hname, List.filter_cons_of_pos (by simpa using hname), List.filter_nil, List.getLast?_concat]
        rfl
      · rw [if_neg hname, List.filter_cons_of_neg (by simpa using hname), List.filter_nil, List.append_nil, ih,
          lastRecord?]

/-- **Records without declarations** can be left out of a history. -/
theorem ofHistory_effective (history : List (String × Declarations)) :
    ofHistory (effective history) = ofHistory history := by
  induction history using List.reverseRecOn with
  | nil => rfl
  | append_singleton history r ih =>
    obtain ⟨name, d⟩ := r
    by_cases hd : d = []
    · rw [hd, effective_concat_nil, ih, ofHistory_concat, record_nil]
    · rw [effective_concat hd, ofHistory_concat, ofHistory_concat, ih]

end History

/-! ## Text -/

/-- Under different names each rule is found under its own. -/
theorem map_renderRule {t : StyleTable} (h : t.names.Nodup) :
    t.names.map t.renderRule = (t.rules.map fun r => ruleText r.1 r.2).map some := by
  rw [names, Entries.keys, List.map_map, List.map_map]
  refine List.map_congr_left fun r hr => ?_
  show (Entries.get? r.1 t.rules).map (ruleText r.1) = some (ruleText r.1 r.2)
  rw [Entries.get?_of_mem h hr]
  rfl

/-! ## The table after a history -/

/-- **The table after any history of records.** Its names are those recorded with declarations, each where it first
is, and each name is bound to what it was last recorded with. Records without declarations change nothing: they
can be left out of the history, and none of them takes a rule away. The size of the table is the number of its
names, and it contains these and no others. Its text is made of the rules of its names in their order, so
histories that come to the same names and bindings come to the same text. -/
theorem table_of_history (history : List (String × Declarations)) :
    (ofHistory history).names = (recordedNames history).eraseDups ∧
    (∀ name, Entries.get? name (ofHistory history).rules = lastRecord? name history) ∧
    ofHistory (effective history) = ofHistory history ∧
    (∀ name, ofHistory (history ++ [(name, [])]) = ofHistory history) ∧
    (ofHistory history).size = (ofHistory history).names.length ∧
    (∀ name, (ofHistory history).contains name = true ↔ name ∈ (ofHistory history).names) ∧
    (∃ texts, (ofHistory history).names.map (ofHistory history).renderRule = texts.map some ∧
      (ofHistory history).toCss = "\n".intercalate texts) ∧
    ∀ other, (ofHistory other).names = (ofHistory history).names →
      (∀ name, Entries.get? name (ofHistory other).rules = Entries.get? name (ofHistory history).rules) →
      (ofHistory other).toCss = (ofHistory history).toCss := by
  have htexts := map_renderRule (nodup_names_ofHistory history)
  refine ⟨names_ofHistory history, fun name => get?_ofHistory name history, ofHistory_effective history,
    fun name => ?_, ?_, fun name => List.contains_iff_mem, ⟨_, htexts, rfl⟩, fun other hnames hbound => ?_⟩
  · rw [ofHistory_concat, record_nil]
  · exact (List.length_map _).symm
  · -- the texts of the rules can be read off the names and the bindings
    have hrender : (ofHistory other).renderRule = (ofHistory history).renderRule := by
      funext name
      rw [renderRule, renderRule, hbound]
    have hother := map_renderRule (nodup_names_ofHistory other)
    rw [hnames, hrender, htexts] at hother
    exact congrArg "\n".intercalate ((List.map_inj_right fun _ _ => Option.some.inj).mp hother).symm

/-- A name that is recorded again keeps its place and takes the new declarations. -/
example : ofHistory [("a", [("width", "1px")]), ("b", [("width", "2px")]), ("a", []), ("a", [("height", "3px")])] =
    ⟨[("a", [("height", "3px")]), ("b", [("width", "2px")])]⟩ := by
  decide

end DesignMarkup.StyleTable
