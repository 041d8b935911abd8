import DesignMarkup.Lookup
import DesignMarkup.Proofs.Outcome

/-!
# `Proofs.Lookup` — look-ups in data of the usual form

A look-up asks a value for its fields, or goes through its elements, before it knows what the value is, so it
can fail in two ways: with the answer that a name is not there, or at a value of another kind. In a file of the
form below only the first can happen, whatever the names are. For a list of the pages no more is needed than
that they are objects, and nothing less will do.

## Contents

* `IsSection`, `IsObject`, `IsFile`: **the form of a file**;
* `IsNode`, `IsPage`: the form of what is searched;
* `pagesOf_iff`, `listPages_succeeds_iff`: the pages of a file;
* `findBelow_eq`: the search below a node, by its children;
* `findPage_of_isFile`, `findFrame_of_isPage`: **searches that find what they look for or tell that it is
  missing**.
-/

namespace DesignMarkup.Lookup

open Json (fieldOrNull)

/-! ## The form of a file -/

/-- A value that does not count as present, or an object with such fields. -/
inductive IsSection (form : List (String × Json) → Prop) : Json → Prop where
  | absent {v : Json} : v.isTruthy = false → IsSection form v
  | object {fields : List (String × Json)} : form fields → IsSection form (.object fields)

/-- An object. -/
inductive IsObject : Json → Prop where
  | mk (fields : List (String × Json)) : IsObject (.object fields)

/-- The fields of a document of which every page has the form. -/
def IsDocument (page : Json → Prop) (fields : List (String × Json)) : Prop :=
  ∃ pages, elementsOf (fieldOr fields "children" (.array [])) = .ok pages ∧ ∀ v ∈ pages, page v

/-- **A file of which every page has the form.** It may have no document, and the document no children. -/
inductive IsFile (page : Json → Prop) : Json → Prop where
  | mk {fields : List (String × Json)} :
    IsSection (IsDocument page) (fieldOrNull fields "document") → IsFile page (.object fields)

/-- The id is a text; a missing one is empty. -/
def HasTextId (fields : List (String × Json)) : Prop :=
  ∃ id, fieldOr fields "id" (.string "") = .string id

/-- **A node that can be searched**: an object with a text as id, whose children do not count as present or
are an array of such nodes. -/
inductive IsNode : Json → Prop where
  | leaf {fields : List (String × Json)} :
    HasTextId fields → (fieldOrNull fields "children").isTruthy = false → IsNode (.object fields)
  | parent {fields : List (String × Json)} {items : List Json} :
    HasTextId fields → fieldOrNull fields "children" = .array items → (∀ v ∈ items, IsNode v) →
    IsNode (.object fields)

/-- **A page that can be searched.** Its id may be anything. -/
inductive IsPage : Json → Prop where
  | leaf {fields : List (String × Json)} :
    (fieldOrNull fields "children").isTruthy = false → IsPage (.object fields)
  | parent {fields : List (String × Json)} {items : List Json} :
    fieldOrNull fields "children" = .array items → (∀ v ∈ items, IsNode v) → IsPage (.object fields)

/-! ## The pages of a file -/

/-- A section has fields, none if it is absent. -/
theorem fieldsOrNone_iff {form : List (String × Json) → Prop} (hnone : form []) (v : Json) :
    (∃ fields, fieldsOrNone v = .ok fields ∧ form fields) ↔ IsSection form v := by
  rw [fieldsOrNone]
  cases htruthy : v.isTruthy with
  | false => exact iff_of_true ⟨[], rfl, hnone⟩ (.absent htruthy)
  | true =>
    constructor
    · rintro ⟨fields, hfields, hform⟩
      cases v with
      | object entries =>
        obtain rfl := Except.ok.inj hfields
        exact .object hform
      | _ => cases hfields
    · rintro (hfalsy | hform)
      · rw [htruthy] at hfalsy
        cases hfalsy
      · exact ⟨_, rfl, hform⟩

/-- A document without fields has no pages. -/
theorem isDocument_nil (page : Json → Prop) : IsDocument page [] :=
  ⟨[], rfl, fun _ hv => absurd hv List.not_mem_nil⟩

/-- **The pages of a file** are there exactly if it has the form. -/
theorem pagesOf_iff (page : Json → Prop) (file : Json) :
    (∃ pages, pagesOf file = .ok pages ∧ ∀ v ∈ pages, page v) ↔ IsFile page file := by
  constructor
  · rintro ⟨pages, hpages, hall⟩
    obtain ⟨fields, hfields, hpages⟩ := bind_eq_ok.mp hpages
    cases file with
    | object entries =>
      obtain rfl := Except.ok.inj hfields
      obtain ⟨document, hdocument, hpages⟩ := bind_eq_ok.mp hpages
      exact .mk ((fieldsOrNone_iff (isDocument_nil page) _).mp ⟨document, hdocument, pages, hpages, hall⟩)
    | _ => cases hfields
  · rintro ⟨hsection⟩
    obtain ⟨document, hdocument, pages, hpages, hall⟩ :=
      (fieldsOrNone_iff (isDocument_nil page) _).mpr hsection
    exact ⟨pages, bind_eq_ok.mpr ⟨_, rfl, bind_eq_ok.mpr ⟨document, hdocument, hpages⟩⟩, hall⟩

theorem fieldsOf_succeeds_iff (v : Json) : Succeeds (fieldsOf v) ↔ IsObject v := by
  cases v with
  | object fields => exact iff_of_true (succeeds_ok fields) (.mk fields)
  | _ => exact iff_of_false (not_succeeds_error _) nofun

theorem pageEntry_succeeds_iff (v : Json) : Succeeds (pageEntry v) ↔ IsObject v := by
  rw [pageEntry, succeeds_bind_pure_iff, fieldsOf_succeeds_iff]

/-- **The pages can be listed** exactly if all of them are objects. -/
theorem listPages_succeeds_iff (file : Json) : Succeeds (listPages file) ↔ IsFile IsObject file := by
  rw [← pagesOf_iff]
  constructor
  · rintro ⟨entries, hentries⟩
    obtain ⟨pages, hpages, hentries⟩ := bind_eq_ok.mp hentries
    have hall := succeeds_mapM_iff.mp ⟨entries, hentries⟩
    exact ⟨pages, hpages, fun v hv => (pageEntry_succeeds_iff v).mp (hall v hv)⟩
  · rintro ⟨pages, hpages, hall⟩
    obtain ⟨entries, hentries⟩ := succeeds_mapM_iff.mpr fun v hv =>
      (pageEntry_succeeds_iff v).mpr (hall v hv)
    exact ⟨entries, bind_eq_ok.mpr ⟨pages, hpages, hentries⟩⟩

/-! ## Searches -/

section Searches

variable (name : Argument)

/-- A search among objects gives one of them, or none. -/
theorem firstNamed_of_objects {items : List Json} (h : ∀ v ∈ items, IsObject v) :
    ∃ found, firstNamed name items = .ok found ∧ ∀ fields ∈ found, .object fields ∈ items := by
  induction items with
  | nil => exact ⟨none, rfl, nofun⟩
  | cons v rest ih =>
    obtain ⟨fields⟩ := h v List.mem_cons_self
    rw [firstNamed, fieldsOf, ok_bind]
    by_cases hname : hasName fields name = true
    · refine ⟨some fields, if_pos hname, fun fields' hfields' => ?_⟩
      obtain rfl := Option.some.inj hfields'
      exact List.mem_cons_self
    · rw [if_neg hname]
      obtain ⟨found, hfound, hmem⟩ := ih fun w hw => h w (List.mem_cons_of_mem _ hw)
      exact ⟨found, hfound, fun fields' hfields' => List.mem_cons_of_mem _ (hmem fields' hfields')⟩

/-- A page is an object. -/
theorem IsPage.isObject {v : Json} (h : IsPage v) : IsObject v := by
  cases h with
  | leaf _ => exact .mk _
  | parent _ _ => exact .mk _

/-- **The search for a page** finds one, or tells that there is none. -/
theorem findPage_of_isFile {file : Json} (h : IsFile IsPage file) :
    (∃ page, findPage file name = .ok page ∧ IsPage (.object page)) ∨
      ∃ e, findPage file name = .error (.notFound e) := by
  obtain ⟨pages, hpages, hall⟩ := (pagesOf_iff IsPage file).mpr h
  obtain ⟨found, hfound, hmem⟩ := firstNamed_of_objects name fun v hv => (hall v hv).isObject
  rw [findPage, hpages, ok_bind, hfound, ok_bind]
  cases found with
  | none => exact .inr ⟨_, rfl⟩
  | some page => exact .inl ⟨page, rfl, hall _ (hmem page rfl)⟩

/-- **The search below a node** goes by the value of its children. -/
theorem findBelow_eq (fields : List (String × Json)) :
    findBelow name fields =
      match fieldOrNull fields "children" with
      | .array items => findAmong name items
      | v => if !v.isTruthy then .ok none else elementsOf v >>= fun _ => throw (.noFields v) := by
  induction fields with
  | nil => rw [findBelow]; rfl
  | cons entry rest ih =>
    obtain ⟨key, v⟩ := entry
    unfold findBelow
    rw [fieldOrNull, Entries.get?]
    by_cases hkey : key = "children"
    · rw [if_pos hkey, if_pos hkey]
      cases v with
      | array items => rfl
      | _ => rfl
    · rw [if_neg hkey, if_neg hkey]
      exact ih

/-- Children that do not count as present hold nothing. -/
theorem findBelow_of_absent {fields : List (String × Json)}
    (h : (fieldOrNull fields "children").isTruthy = false) : findBelow name fields = .ok none := by
  rw [findBelow_eq]
  split
  · next items hitems =>
    have hnil : items = [] := by simpa [hitems, Json.isTruthy] using h
    rw [hnil, findAmong]
  · next v _ => rw [h]; rfl

/-- A search among nodes gives a node, or none. -/
theorem findAmong_of_all {items : List Json}
    (h : ∀ v ∈ items, ∃ found, findNode name v = .ok found ∧ ∀ fields ∈ found, HasTextId fields) :
    ∃ found, findAmong name items = .ok found ∧ ∀ fields ∈ found, HasTextId fields := by
  induction items with
  | nil => exact ⟨none, by rw [findAmong], nofun⟩
  | cons v rest ih =>
    obtain ⟨found, hfound, hid⟩ := h v List.mem_cons_self
    rw [findAmong, hfound, ok_bind]
    cases found with
    | some fields => exact ⟨some fields, rfl, hid⟩
    | none => exact ih fun w hw => h w (List.mem_cons_of_mem _ hw)

/-- **The search in a node** gives a node with a text as id, or none. -/
theorem findNode_of_isNode {v : Json} (h : IsNode v) :
    ∃ found, findNode name v = .ok found ∧ ∀ fields ∈ found, HasTextId fields := by
  -- the node itself comes first, and below it the search is that of its children
  induction h with
  | @leaf fields hid habsent =>
    rw [findNode]
    split
    · exact ⟨some fields, rfl, fun _ hf => Option.mem_some.mp hf ▸ hid⟩
    · exact ⟨none, findBelow_of_absent name habsent, nofun⟩
  | @parent fields items hid hitems _ ih =>
    rw [findNode]
    split
    · exact ⟨some fields, rfl, fun _ hf => Option.mem_some.mp hf ▸ hid⟩
    · rw [findBelow_eq, hitems]
      exact findAmong_of_all name ih

/-- **The search for a node below a page** finds one with a text as id, or tells that there is none. -/
theorem findFrame_of_isPage {page : List (String × Json)} (h : IsPage (.object page)) :
    (∃ frame, findFrame page name = .ok frame ∧ HasTextId frame) ∨
      ∃ e, findFrame page name = .error (.notFound e) := by
  have hbelow : ∃ found, findBelow name page = .ok found ∧ ∀ fields ∈ found, HasTextId fields := by
    cases h with
    | leaf habsent => exact ⟨none, findBelow_of_absent name habsent, nofun⟩
    | parent hitems hall =>
      rw [findBelow_eq, hitems]
      exact findAmong_of_all name fun v hv => findNode_of_isNode name (hall v hv)
  obtain ⟨found, hfound, hid⟩ := hbelow
  rw [findFrame, hfound, ok_bind]
  cases found with
  | none => exact .inr ⟨_, rfl⟩
  | some frame => exact .inl ⟨frame, rfl, hid frame rfl⟩

end Searches

end DesignMarkup.Lookup
