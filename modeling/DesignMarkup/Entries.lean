/-!
# `Entries` — named values in the order of their first entry

A list of pairs serves as a table whose order can be seen: a new name goes to the end, and a name that
is there keeps its place when its value is replaced.

## Contents

* `put`, `ofList`: entering values;
* `get?`, `keys`: the views;
* `put_of_not_mem`, `keys_put_of_mem`, `mem_of_mem_put`: what entering does to the names and pairs;
* `get?_of_not_mem`, `get?_of_mem`, `get?_put_self`, `get?_put_of_ne`: the values, and what it does to them.
-/

namespace DesignMarkup.Entries

variable {κ α : Type} [DecidableEq κ]

/-- A name set to a value: it keeps its place if it is there, else it comes last. -/
def put (name : κ) (value : α) : List (κ × α) → List (κ × α)
  | [] => [(name, value)]
  | (other, old) :: rest =>
    if other = name then (name, value) :: rest else (other, old) :: put name value rest

/-- The pairs entered one after the other. -/
def ofList (pairs : List (κ × α)) : List (κ × α) :=
  pairs.foldl (fun entries (name, value) => put name value entries) []

/-- The value of a name. -/
def get? (name : κ) : List (κ × α) → Option α
  | [] => none
  | (other, value) :: rest => if other = name then some value else get? name rest

omit [DecidableEq κ] in
/-- The names in order. -/
def keys (entries : List (κ × α)) : List κ :=
  entries.map (·.1)

/-- A new name comes last. -/
theorem put_of_not_mem {name : κ} {value : α} {entries : List (κ × α)}
    (h : name ∉ keys entries) : put name value entries = entries ++ [(name, value)] := by
  induction entries with
  | nil => rfl
  | cons e rest ih =>
    obtain ⟨other, old⟩ := e
    simp only [keys, List.map_cons, List.mem_cons, not_or] at h
    simp [put, Ne.symm h.1, ih h.2]

/-- Replacing a value leaves the names as they are. -/
theorem keys_put_of_mem {name : κ} {value : α} {entries : List (κ × α)}
    (h : name ∈ keys entries) : keys (put name value entries) = keys entries := by
  induction entries with
  | nil => simp [keys] at h
  | cons e rest ih =>
    obtain ⟨other, old⟩ := e
    by_cases he : other = name
    · simp [put, keys, he]
    · have : name ∈ keys rest := by
        simpa [keys, Ne.symm he] using h
      simpa [put, he, keys] using ih this

/-- Entering a value brings in no other pair. -/
theorem mem_of_mem_put {name : κ} {value : α} {entries : List (κ × α)} {e : κ × α}
    (h : e ∈ put name value entries) : e = (name, value) ∨ e ∈ entries := by
  induction entries with
  | nil => exact .inl (List.mem_singleton.mp h)
  | cons first rest ih =>
    rw [put] at h
    split at h
    · exact (List.mem_cons.mp h).imp_right (List.mem_cons_of_mem first)
    · rcases List.mem_cons.mp h with rfl | h
      · exact .inr List.mem_cons_self
      · exact (ih h).imp_right (List.mem_cons_of_mem first)

/-- A name that is not there has no value. -/
theorem get?_of_not_mem {name : κ} {entries : List (κ × α)} (h : name ∉ keys entries) :
    get? name entries = none := by
  induction entries with
  | nil => rfl
  | cons e rest ih =>
    obtain ⟨other, value⟩ := e
    obtain ⟨hne, hrest⟩ := not_or.mp (mt List.mem_cons.mpr h)
    rw [get?, if_neg (Ne.symm hne), ih hrest]

/-- Under different names each value is found under its own. -/
theorem get?_of_mem {name : κ} {value : α} {entries : List (κ × α)} (hnodup : (keys entries).Nodup)
    (h : (name, value) ∈ entries) : get? name entries = some value := by
  induction entries with
  | nil => cases h
  | cons e rest ih =>
    obtain ⟨other, old⟩ := e
    obtain ⟨hnew, hnodup⟩ := List.nodup_cons.mp hnodup
    obtain he | h := List.mem_cons.mp h
    · obtain ⟨rfl, rfl⟩ := Prod.mk.inj he
      rw [get?, if_pos rfl]
    · have hne : other ≠ name := by
        rintro rfl
        exact hnew (List.mem_map.mpr ⟨(other, value), h, rfl⟩)
      rw [get?, if_neg hne, ih hnodup h]

/-- The value entered last is the one found. -/
theorem get?_put_self {name : κ} {value : α} {entries : List (κ × α)} :
    get? name (put name value entries) = some value := by
  induction entries with
  | nil => simp [put, get?]
  | cons e rest ih =>
    obtain ⟨other, old⟩ := e
    by_cases he : other = name <;> simp [put, get?, he, ih]

/-- Entering a value changes no other name's value. -/
theorem get?_put_of_ne {name other : κ} {value : α} {entries : List (κ × α)}
    (h : other ≠ name) : get? other (put name value entries) = get? other entries := by
  induction entries with
  | nil => simp [put, get?, Ne.symm h]
  | cons e rest ih =>
    obtain ⟨first, old⟩ := e
    by_cases he : first = name
    · subst he; simp [put, get?, Ne.symm h]
    · simp [put, get?, he, ih]

end DesignMarkup.Entries
