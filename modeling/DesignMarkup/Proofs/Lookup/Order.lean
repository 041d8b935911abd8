import DesignMarkup.Proofs.Lookup

/-!
# `Proofs.Lookup.Order` — a search finds the first of all that there are

A search stops at the first hit and goes down into children before it goes on to the next node. So it finds
what a search through a list finds: through the list of the pages, or of the nodes below a page, parents
before children. What such a search does not find is not there. A page that is listed with a name is found by
it, except that a missing name is listed as an empty one, which no search finds.

## Contents

* `IsFirst`: the first element with a property;
* `IsTree`, `nodesOf`, `nodesBelow_eq`: the nodes of a tree of any depth, in document order;
* `HasPages`: a file with pages;
* `findBelow_of_isTree`: **the search in a tree is a search in the list of its nodes**;
* `lookup_finds_first`: **what is found, and when nothing is**.
-/

namespace DesignMarkup.Lookup

open Json (fieldOrNull)

/-! ## The first with a property -/

/-- The first element of a list that has the property. -/
def IsFirst {α : Type} (p : α → Prop) (as : List α) (a : α) : Prop :=
  ∃ before after, as = before ++ a :: after ∧ p a ∧ ∀ b ∈ before, ¬p b

section First

variable {α β : Type} {p : α → Prop} {q : α → Bool} {as : List α} {a : α}

/-- What a list search finds is the first. -/
theorem find?_eq_some_iff_isFirst (h : ∀ a, q a = true ↔ p a) :
    as.find? q = some a ↔ IsFirst p as a := by
  rw [List.find?_eq_some_iff_append]
  simp only [h, Bool.not_eq_true', Bool.eq_false_iff, ne_eq]
  constructor
  · rintro ⟨ha, before, after, has, hbefore⟩
    exact ⟨before, after, has, ha, hbefore⟩
  · rintro ⟨before, after, has, ha, hbefore⟩
    exact ⟨ha, before, after, has, hbefore⟩

/-- The first stays the first when a list is mapped, for properties that correspond. -/
theorem IsFirst.map {f : α → β} {r : β → Prop} (h : IsFirst p as a) (hr : ∀ a, r (f a) ↔ p a) :
    IsFirst r (as.map f) (f a) := by
  obtain ⟨before, after, rfl, ha, hbefore⟩ := h
  refine ⟨before.map f, after.map f, List.map_append, (hr a).mpr ha, fun b hb => ?_⟩
  obtain ⟨a', ha', rfl⟩ := List.mem_map.mp hb
  exact fun hb => hbefore a' ha' ((hr a').mp hb)

end First

/-! ## The nodes of a tree -/

/-- **A tree of nodes**: an object whose children do not count as present or are an array of such trees. -/
inductive IsTree : Json → Prop where
  | leaf {fields : List (String × Json)} :
    (fieldOrNull fields "children").isTruthy = false → IsTree (.object fields)
  | parent {fields : List (String × Json)} {items : List Json} :
    fieldOrNull fields "children" = .array items → (∀ v ∈ items, IsTree v) → IsTree (.object fields)

mutual

/-- The nodes of a tree, parents before children. -/
def nodesOf : Json → List (List (String × Json))
  | .object fields => fields :: nodesBelow fields
  | _ => []

/-- The nodes strictly below a node. -/
def nodesBelow : List (String × Json) → List (List (String × Json))
  | [] => []
  | (key, v) :: rest =>
    if key = "children" then
      match v with
      | .array items => nodesAmong items
      | _ => []
    else nodesBelow rest

/-- The nodes of several trees one after the other. -/
def nodesAmong : List Json → List (List (String × Json))
  | [] => []
  | v :: rest => nodesOf v ++ nodesAmong rest

end

/-- The nodes below a node are those of the trees in its field of children. -/
theorem nodesBelow_eq (fields : List (String × Json)) :
    nodesBelow fields =
      match fieldOrNull fields "children" with
      | .array items => items.flatMap nodesOf
      | _ => [] := by
  have hamong (items : List Json) : nodesAmong items = items.flatMap nodesOf := by
    induction items with
    | nil => rw [nodesAmong, List.flatMap_nil]
    | cons v rest ih => rw [nodesAmong, ih, List.flatMap_cons]
  induction fields with
  | nil => rw [nodesBelow]; rfl
  | cons entry rest ih =>
    obtain ⟨key, v⟩ := entry
    unfold nodesBelow
    rw [fieldOrNull, Entries.get?]
    by_cases hkey : key = "children"
    · rw [if_pos hkey, if_pos hkey]
      cases v with
      | array items => exact hamong items
      | _ => rfl
    · rw [if_neg hkey, if_neg hkey]
      exact ih

/-- Children that do not count as present are no nodes. -/
theorem nodesBelow_of_absent {fields : List (String × Json)}
    (h : (fieldOrNull fields "children").isTruthy = false) : nodesBelow fields = [] := by
  rw [nodesBelow_eq]
  split
  · next items hitems =>
    have hnil : items = [] := by simpa [hitems, Json.isTruthy] using h
    rw [hnil, List.flatMap_nil]
  · rfl

theorem IsTree.exists_fields {v : Json} (h : IsTree v) : ∃ fields, v = .object fields := by
  cases h with
  | leaf _ => exact ⟨_, rfl⟩
  | parent _ _ => exact ⟨_, rfl⟩

/-! ## Searches -/

section Searches

variable (name : Argument)

/-- A search among objects is a search in the list of their fields. -/
theorem firstNamed_map_object (pages : List (List (String × Json))) :
    firstNamed name (pages.map .object) = .ok (pages.find? (hasName · name)) := by
  induction pages with
  | nil => rfl
  | cons page rest ih =>
    rw [List.map_cons, firstNamed, fieldsOf, ok_bind, List.find?_cons]
    cases hasName page name with
    | true => rfl
    | false => exact ih

/-- A search among trees is a search in the list of all their nodes. -/
theorem findAmong_of_trees {items : List Json}
    (h : ∀ v ∈ items, findNode name v = .ok ((nodesOf v).find? (hasName · name))) :
    findAmong name items = .ok ((items.flatMap nodesOf).find? (hasName · name)) := by
  induction items with
  | nil => rw [findAmong]; rfl
  | cons v rest ih =>
    rw [findAmong, h v List.mem_cons_self, ok_bind, List.flatMap_cons, List.find?_append]
    cases (nodesOf v).find? (hasName · name) with
    | some fields => rfl
    | none => exact ih fun w hw => h w (List.mem_cons_of_mem _ hw)

/-- The search in a node is a search in the list of its nodes if the search below it is one. -/
theorem findNode_of_findBelow {fields : List (String × Json)}
    (h : findBelow name fields = .ok ((nodesBelow fields).find? (hasName · name))) :
    findNode name (.object fields) = .ok ((nodesOf (.object fields)).find? (hasName · name)) := by
  rw [findNode, nodesOf, List.find?_cons]
  cases hasName fields name with
  | true => rfl
  | false => exact h

/-- **The search below a node** of a tree is a search in the list of the nodes below it. -/
theorem findBelow_of_isTree {fields : List (String × Json)} (h : IsTree (.object fields)) :
    findBelow name fields = .ok ((nodesBelow fields).find? (hasName · name)) := by
  generalize hv : Json.object fields = v at h
  induction h generalizing fields with
  | @leaf fields' habsent =>
    obtain rfl := Json.object.inj hv
    rw [findBelow_of_absent name habsent, nodesBelow_of_absent habsent, List.find?_nil]
  | @parent fields' items hitems htrees ih =>
    obtain rfl := Json.object.inj hv
    rw [findBelow_eq, nodesBelow_eq, hitems]
    refine findAmong_of_trees name fun w hw => ?_
    -- each of the children is a tree, and its own search is one below it
    obtain ⟨fields', rfl⟩ := (htrees w hw).exists_fields
    exact findNode_of_findBelow name (ih _ hw rfl)

end Searches

/-! ## Files -/

/-- **A file with pages**: its document has an array of objects as children. -/
inductive HasPages (pages : List (List (String × Json))) : Json → Prop where
  | mk {fields document : List (String × Json)} :
    fieldOrNull fields "document" = .object document →
    fieldOrNull document "children" = .array (pages.map .object) → HasPages pages (.object fields)

/-- The page or node has the name in its field for it. -/
def HasName (name : String) (fields : List (String × Json)) : Prop :=
  fieldOrNull fields "name" = .string name

theorem hasName_text_iff (name : String) (fields : List (String × Json)) :
    hasName fields (.text name) = true ↔ HasName name fields := by
  unfold hasName HasName
  cases fieldOrNull fields "name" with
  | string s => simp
  | array items => cases items <;> simp
  | _ => simp

/-- A field that is there has its value, whatever would stand for a missing one. -/
theorem fieldOr_of_ne {fields : List (String × Json)} {name : String} {v : Json}
    (h : fieldOrNull fields name = v) (hv : v ≠ .null) (other : Json) : fieldOr fields name other = v := by
  rw [fieldOrNull] at h
  rw [fieldOr]
  cases hget : Entries.get? name fields with
  | none => rw [hget] at h; exact absurd h.symm hv
  | some w => rw [hget] at h; exact h

/-- The pages of a file are there. -/
theorem HasPages.pagesOf {pages : List (List (String × Json))} {file : Json} (h : HasPages pages file) :
    pagesOf file = .ok (pages.map .object) := by
  obtain @⟨fields, document, hdocument, hchildren⟩ := h
  have hfields : fieldsOrNone (.object document) = .ok document := by
    cases document <;> rfl
  rw [Lookup.pagesOf, fieldsOf, ok_bind, hdocument, hfields, ok_bind,
    fieldOr_of_ne hchildren (by simp), elementsOf]

/-- The search for a page is a search in the list of the pages. -/
theorem HasPages.findPage {pages : List (List (String × Json))} {file : Json} (h : HasPages pages file)
    (name : Argument) :
    findPage file name = match pages.find? (hasName · name) with
      | some page => .ok page
      | none => .error (.notFound (.pageNotFound name.shown)) := by
  rw [Lookup.findPage, h.pagesOf, ok_bind, firstNamed_map_object, ok_bind]
  cases pages.find? (hasName · name) <;> rfl

/-- What is listed of a page. -/
def entryOf (page : List (String × Json)) : PageEntry :=
  ⟨fieldOr page "name" (.string ""), fieldOr page "id" (.string "")⟩

/-- The list of the pages has an entry for each. -/
theorem HasPages.listPages {pages : List (List (String × Json))} {file : Json} (h : HasPages pages file) :
    listPages file = .ok (pages.map entryOf) := by
  have hentries : (pages.map Json.object).mapM pageEntry = .ok (pages.map entryOf) := by
    clear h
    induction pages with
    | nil => rfl
    | cons page rest ih => rw [List.map_cons, List.mapM_cons, ih]; rfl
  rw [Lookup.listPages, h.pagesOf, ok_bind, hentries]

/-- A page is listed with a name, other than the empty one, exactly if it has the name. -/
theorem entryOf_name_iff {name : String} (hname : name ≠ "") (page : List (String × Json)) :
    (entryOf page).name = .string name ↔ HasName name page := by
  rw [HasName, entryOf]
  constructor
  · intro h
    rw [fieldOr] at h
    rw [fieldOrNull]
    cases hget : Entries.get? "name" page with
    | none =>
      rw [hget] at h
      exact absurd (Json.string.inj h).symm hname
    | some v =>
      rw [hget] at h
      exact h
  · exact fun h => fieldOr_of_ne h (by simp) _

/-- The search for a node below a page is a search in the list of the nodes below it. -/
theorem findFrame_of_isTree {page : List (String × Json)} (h : IsTree (.object page)) (name : Argument) :
    findFrame page name = match (nodesBelow page).find? (hasName · name) with
      | some frame => .ok frame
      | none => .error (.notFound (.frameNotFound name.shown)) := by
  rw [findFrame, findBelow_of_isTree name h, ok_bind]
  cases (nodesBelow page).find? (hasName · name) <;> rfl

/-- What a list search means for the one who gets its answer, or is told that there is none. -/
theorem answer_iff {name : String} {all : List (List (String × Json))} {e : LookupError}
    {answer : Except LookupError (List (String × Json))}
    (h : answer = match all.find? (hasName · (.text name)) with
      | some fields => .ok fields
      | none => .error e) :
    (∀ fields, answer = .ok fields ↔ IsFirst (HasName name) all fields) ∧
      (answer = .error e ↔ ∀ fields ∈ all, ¬HasName name fields) := by
  have hfirst (fields : List (String × Json)) :
      all.find? (hasName · (.text name)) = some fields ↔ IsFirst (HasName name) all fields :=
    find?_eq_some_iff_isFirst (hasName_text_iff name)
  have hnone : all.find? (hasName · (.text name)) = none ↔ ∀ fields ∈ all, ¬HasName name fields := by
    simp only [List.find?_eq_none, hasName_text_iff]
  rw [← hnone]
  subst h
  constructor
  · intro fields
    rw [← hfirst]
    cases all.find? (hasName · (.text name)) <;> simp
  · cases all.find? (hasName · (.text name)) <;> simp

/-! ## What is found -/

/-- **Searches find the first.** In a file with pages the search for a page finds the first page with the name,
and tells that there is none exactly if no page has it; every page is listed, and a name that is listed and
not empty is found, with the id of its first entry. Below a page of which the nodes form a tree, the search
finds the first node with the name in document order, the page itself left out, and tells that there is none
exactly if no node below the page has it. -/
theorem lookup_finds_first (name : String) :
    (∀ file pages, HasPages pages file →
      (∀ page, findPage file (.text name) = .ok page ↔ IsFirst (HasName name) pages page) ∧
      (findPage file (.text name) = .error (.notFound (.pageNotFound name)) ↔
        ∀ page ∈ pages, ¬HasName name page) ∧
      listPages file = .ok (pages.map entryOf) ∧
      (name ≠ "" → (∃ entry ∈ pages.map entryOf, entry.name = .string name) →
        ∃ page entry, findPage file (.text name) = .ok page ∧
          IsFirst (fun entry => entry.name = .string name) (pages.map entryOf) entry ∧
          fieldOr page "id" (.string "") = entry.id)) ∧
    (∀ page, IsTree (.object page) →
      (∀ frame, findFrame page (.text name) = .ok frame ↔
        IsFirst (HasName name) (nodesBelow page) frame) ∧
      (findFrame page (.text name) = .error (.notFound (.frameNotFound name)) ↔
        ∀ node ∈ nodesBelow page, ¬HasName name node)) := by
  refine ⟨fun file pages h => ?_, fun page h => answer_iff (findFrame_of_isTree h (.text name))⟩
  obtain ⟨hfinds, htells⟩ := answer_iff (h.findPage (.text name))
  refine ⟨hfinds, htells, h.listPages, ?_⟩
  rintro hname ⟨_, hlisted, hentry⟩
  obtain ⟨page, hmem, rfl⟩ := List.mem_map.mp hlisted
  -- some page has the name, so the search in the list does not end without one
  cases hfind : pages.find? (hasName · (.text name)) with
  | none =>
    have hno := List.find?_eq_none.mp hfind page hmem
    exact absurd ((hasName_text_iff name page).mpr ((entryOf_name_iff hname page).mp hentry)) hno
  | some found =>
    have hfound : findPage file (.text name) = .ok found := by rw [h.findPage, hfind]
    exact ⟨found, entryOf found, hfound, ((hfinds found).mp hfound).map (entryOf_name_iff hname), rfl⟩

/-- A node with a name that others have too. -/
def nestedCard : List (String × Json) :=
  [("id", .string "1:2"), ("name", .string "Card")]

/-- A page with a card in a row before a card of its own. -/
def cardPage : List (String × Json) :=
  [("id", .string "0:2"), ("name", .string "Design"),
   ("children", .array
    [.object [("id", .string "1:1"), ("children", .array [.object nestedCard])],
     .object [("id", .string "1:3"), ("name", .string "Card"), ("children", .null)]])]

/-- Pages of which the first has no name and two have the same. -/
def cardPages : List (List (String × Json)) :=
  [[("id", .string "0:1")], cardPage, [("id", .string "0:3"), ("name", .string "Design")]]

/-- A file with these pages. -/
def cardFile : Json :=
  .object [("document", .object [("children", .array (cardPages.map .object))])]

theorem card_found_first :
    HasPages cardPages cardFile ∧ IsTree (.object cardPage) ∧
      IsFirst (HasName "Design") cardPages cardPage ∧
      IsFirst (HasName "Card") (nodesBelow cardPage) nestedCard ∧
      ∃ page entry, findPage cardFile (.text "Design") = .ok page ∧
        IsFirst (fun entry => entry.name = .string "Design") (cardPages.map entryOf) entry ∧
        fieldOr page "id" (.string "") = entry.id := by
  have hpages : HasPages cardPages cardFile := .mk rfl rfl
  have htree : IsTree (.object cardPage) := by
    refine .parent rfl (List.forall_mem_cons.mpr ⟨?_, List.forall_mem_singleton.mpr (.leaf rfl)⟩)
    exact .parent rfl (List.forall_mem_singleton.mpr (.leaf rfl))
  refine ⟨hpages, htree, ?_, ?_, ?_⟩
  · exact (((lookup_finds_first "Design").1 _ _ hpages).1 cardPage).mp rfl
  · exact (((lookup_finds_first "Card").2 _ htree).1 nestedCard).mp rfl
  · exact ((lookup_finds_first "Design").1 _ _ hpages).2.2.2 (by decide)
      ⟨entryOf cardPage, List.mem_of_getElem? (i := 1) rfl, rfl⟩

end DesignMarkup.Lookup
