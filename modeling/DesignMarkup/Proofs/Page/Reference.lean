import DesignMarkup.Json.Reader
import DesignMarkup.Proofs.Page.FileName
import Mathlib.Data.List.Induction
import Mathlib.Data.List.TakeWhile

/-!
# `Proofs.Page.Reference` — file names as references

A page refers to another by a reference, and a reader of the reference does not take it as it stands: its path
ends at a question mark or a hash, and a percent sign with two digits stands for a byte. A file name in the place
of a reference leads to the file of that name if it has none of these, and for a name that is one component of a
path only then, since all that the reading leaves out or puts together makes the path shorter.

## Contents

* `pathPart`, `octet?`, `pathBytes`, `referredPath?`: the path that a reference writes;
* `IsLiteral`, `referredPath?_of_literal`, `size_lt_of_not_literal`: **references that are read as they stand**;
* `Store.follow`, `follow_of_literal`, `follow_iff`: **where a reference leads**;
* `isLiteral_unusedFileName`: the file names of designs.
-/

namespace DesignMarkup

namespace Page

/-! ## The path of a reference -/

/-- The part of a reference that writes a path: what stands before a query or a fragment. -/
def pathPart (cs : List Char) : List Char :=
  cs.takeWhile fun c => c != '?' && c != '#'

/-- The byte for which two digits stand after a percent sign. -/
def octet? (a b : Char) : Option UInt8 := do
  return UInt8.ofNat ((← Json.hexDigit? a) * 16 + (← Json.hexDigit? b))

/-- The bytes of a path: a percent sign with two digits is one byte, everything else is written as it is. -/
def pathBytes : List Char → List UInt8
  | '%' :: a :: b :: rest =>
    match octet? a b with
    | some byte => byte :: pathBytes rest
    | none => String.utf8EncodeChar '%' ++ pathBytes (a :: b :: rest)
  | c :: rest => String.utf8EncodeChar c ++ pathBytes rest
  | [] => []

/-- **The path that a reference writes**, if its bytes are a text. -/
def referredPath? (reference : String) : Option String :=
  String.fromUTF8? (pathBytes (pathPart reference.toList)).toByteArray

/-! ## References that are read as they stand -/

/-- **A reference is literal** if it has no query, no fragment and no byte written with digits. -/
structure IsLiteral (reference : String) : Prop where
  query : '?' ∉ reference.toList
  fragment : '#' ∉ reference.toList
  octets : ∀ a b, ['%', a, b] <:+: reference.toList → octet? a b = none

/-- The bytes of characters. -/
def bytesOf (cs : List Char) : List UInt8 :=
  cs.flatMap String.utf8EncodeChar

section Bytes

variable {cs : List Char}

theorem fromUTF8?_eq_some_iff {bytes : ByteArray} {s : String} :
    String.fromUTF8? bytes = some s ↔ s.toByteArray = bytes := by
  unfold String.fromUTF8?
  constructor
  · intro h
    split at h
    · rw [← Option.some.inj h]
      rfl
    · cases h
  · rintro rfl
    rw [dif_pos s.isValidUTF8]
    rfl

/-- The bytes of a text are those of its characters. -/
theorem toByteArray_eq (s : String) : s.toByteArray = (bytesOf s.toList).toByteArray := by
  have h := String.toByteArray_ofList (l := s.toList)
  rw [String.ofList_toList] at h
  exact h

/-- The size of a text in bytes. -/
theorem utf8ByteSize_eq (s : String) : s.utf8ByteSize = (bytesOf s.toList).length := by
  show s.toByteArray.size = _
  rw [toByteArray_eq, List.size_toByteArray]

theorem bytesOf_cons (c : Char) (cs : List Char) : bytesOf (c :: cs) = String.utf8EncodeChar c ++ bytesOf cs :=
  List.flatMap_cons

theorem length_bytesOf_cons (c : Char) (cs : List Char) :
    (bytesOf (c :: cs)).length = c.utf8Size + (bytesOf cs).length := by
  rw [bytesOf_cons, List.length_append, String.length_utf8EncodeChar]

/-- Fewer characters are no more bytes. -/
theorem length_bytesOf_le {cs ds : List Char} (h : cs.Sublist ds) :
    (bytesOf cs).length ≤ (bytesOf ds).length := by
  induction h with
  | slnil => exact Nat.le_refl _
  | cons d _ ih =>
    rw [length_bytesOf_cons]
    omega
  | cons_cons d _ ih =>
    rw [length_bytesOf_cons, length_bytesOf_cons]
    omega

theorem pathPart_eq_self (hquery : '?' ∉ cs) (hfragment : '#' ∉ cs) : pathPart cs = cs := by
  refine List.takeWhile_eq_self_iff.mpr fun c hc => ?_
  have hq : c ≠ '?' := fun he => hquery (he ▸ hc)
  have hf : c ≠ '#' := fun he => hfragment (he ▸ hc)
  simp [hq, hf]

/-- A query or a fragment takes bytes of its own. -/
theorem length_pathPart_lt (h : '?' ∈ cs ∨ '#' ∈ cs) :
    (bytesOf (pathPart cs)).length < (bytesOf cs).length := by
  induction cs with
  | nil => simp at h
  | cons c rest ih =>
    have hsize := c.utf8Size_pos
    rw [pathPart, List.takeWhile_cons, length_bytesOf_cons]
    split
    · next hend =>
      have hrest : '?' ∈ rest ∨ '#' ∈ rest := by
        simp only [Bool.and_eq_true, bne_iff_ne] at hend
        simpa [Ne.symm hend.1, Ne.symm hend.2] using h
      have hlt := ih hrest
      rw [length_bytesOf_cons, ← pathPart]
      omega
    · exact Nat.lt_of_lt_of_le hsize (Nat.le_add_right _ _)

/-- Without bytes that are written with digits the bytes of a path are those of its characters. -/
theorem pathBytes_eq (h : ∀ a b, ['%', a, b] <:+: cs → octet? a b = none) : pathBytes cs = bytesOf cs := by
  fun_induction pathBytes cs with
  | case1 a b rest byte hbyte =>
    have hnone := h a b ⟨[], rest, rfl⟩
    rw [hbyte] at hnone
    cases hnone
  | case2 a b rest hnone ih =>
    rw [bytesOf_cons, ih fun x y hmem => h x y (List.infix_cons hmem)]
  | case3 c rest hno ih =>
    rw [bytesOf_cons, ih fun x y hmem => h x y (List.infix_cons hmem)]
  | case4 => rfl

/-- The bytes of a path are no more than those of its characters. -/
theorem length_pathBytes_le (cs : List Char) : (pathBytes cs).length ≤ (bytesOf cs).length := by
  fun_induction pathBytes cs with
  | case1 a b rest byte hbyte ih =>
    rw [List.length_cons, length_bytesOf_cons, length_bytesOf_cons, length_bytesOf_cons]
    have := ('%' : Char).utf8Size_pos
    omega
  | case2 a b rest hnone ih =>
    rw [List.length_append, String.length_utf8EncodeChar, length_bytesOf_cons]
    omega
  | case3 c rest hno ih =>
    rw [List.length_append, String.length_utf8EncodeChar, length_bytesOf_cons]
    omega
  | case4 => exact Nat.le_refl _

/-- A byte that is written with digits takes more bytes than one. -/
theorem length_pathBytes_lt {a b : Char} (h : ['%', a, b] <:+: cs) (hoctet : octet? a b ≠ none) :
    (pathBytes cs).length < (bytesOf cs).length := by
  fun_induction pathBytes cs with
  | case1 a' b' rest byte hbyte =>
    have hrest := length_pathBytes_le rest
    rw [List.length_cons, length_bytesOf_cons, length_bytesOf_cons, length_bytesOf_cons]
    have := ('%' : Char).utf8Size_pos
    have := a'.utf8Size_pos
    omega
  | case2 a' b' rest hnone ih =>
    rcases List.infix_cons_iff.mp h with hhere | hthere
    · obtain ⟨more, hmore⟩ := hhere
      obtain ⟨ha, hmore⟩ := List.cons.inj (List.cons.inj hmore).2
      obtain ⟨hb, -⟩ := List.cons.inj hmore
      rw [ha, hb] at hoctet
      exact absurd hnone hoctet
    · have := ih hthere
      rw [List.length_append, String.length_utf8EncodeChar, length_bytesOf_cons]
      omega
  | case3 c rest hno ih =>
    rcases List.infix_cons_iff.mp h with hhere | hthere
    · obtain ⟨more, hmore⟩ := hhere
      obtain ⟨rfl, hrest⟩ := List.cons.inj hmore
      exact absurd hrest.symm (hno a b more rfl)
    · have := ih hthere
      rw [List.length_append, String.length_utf8EncodeChar, length_bytesOf_cons]
      omega
  | case4 => simp at h

end Bytes

/-- Without these characters a text is literal. -/
theorem isLiteral_of_not_mem {s : String} (hquery : '?' ∉ s.toList) (hfragment : '#' ∉ s.toList)
    (hpercent : '%' ∉ s.toList) : IsLiteral s := by
  refine ⟨hquery, hfragment, fun a b hmem => ?_⟩
  exact absurd (hmem.subset List.mem_cons_self) hpercent

/-- A reference writes what stands before its end, if that is literal. -/
theorem referredPath?_eq {reference path : String} (hpart : pathPart reference.toList = path.toList)
    (h : IsLiteral path) : referredPath? reference = some path := by
  rw [referredPath?, fromUTF8?_eq_some_iff, hpart, pathBytes_eq h.octets, toByteArray_eq]

/-- **A literal reference writes the path that it looks like.** -/
theorem referredPath?_of_literal {reference : String} (h : IsLiteral reference) :
    referredPath? reference = some reference :=
  referredPath?_eq (pathPart_eq_self h.query h.fragment) h

/-- **A reference that is not literal writes a shorter path.** -/
theorem size_lt_of_not_literal {reference path : String} (h : ¬IsLiteral reference)
    (hpath : referredPath? reference = some path) : path.utf8ByteSize < reference.utf8ByteSize := by
  rw [referredPath?, fromUTF8?_eq_some_iff] at hpath
  have hsize : path.utf8ByteSize = (pathBytes (pathPart reference.toList)).length := by
    show path.toByteArray.size = _
    rw [hpath, List.size_toByteArray]
  have hle := length_pathBytes_le (pathPart reference.toList)
  rw [hsize, utf8ByteSize_eq]
  by_cases hends : '?' ∈ reference.toList ∨ '#' ∈ reference.toList
  · exact Nat.lt_of_le_of_lt hle (length_pathPart_lt hends)
  · obtain ⟨hquery, hfragment⟩ := not_or.mp hends
    rw [pathPart_eq_self hquery hfragment]
    have hoctet : ∃ a b, ['%', a, b] <:+: reference.toList ∧ octet? a b ≠ none := by
      by_contra hno
      refine h ⟨hquery, hfragment, fun a b hmem => ?_⟩
      by_contra hsome
      exact hno ⟨a, b, hmem, hsome⟩
    obtain ⟨a, b, hmem, hsome⟩ := hoctet
    exact length_pathBytes_lt hmem hsome

/-- **The file name of a name without such characters is literal.** -/
theorem isLiteral_unusedFileName {name : String} (hquery : '?' ∉ name.toList) (hfragment : '#' ∉ name.toList)
    (hpercent : '%' ∉ name.toList) (used : List String) : IsLiteral (unusedFileName name used) := by
  apply isLiteral_of_not_mem
  · exact mark_not_mem_unusedFileName (by decide) hquery used
  · exact mark_not_mem_unusedFileName (by decide) hfragment used
  · exact mark_not_mem_unusedFileName (by decide) hpercent used

end Page

/-! ## Where a reference leads -/

namespace Path

/-- The characters of a piece of a path are among those of the path. -/
theorem sublist_of_mem_pieces {cs piece : List Char} (h : piece ∈ pieces cs) : piece.Sublist cs := by
  induction cs generalizing piece with
  | nil =>
    rw [List.mem_singleton.mp h]
  | cons c rest ih =>
    rw [pieces] at h
    by_cases hc : c = '/'
    · rw [if_pos hc] at h
      rcases List.mem_cons.mp h with rfl | h
      · exact List.nil_sublist _
      · exact (ih h).cons c
    · rw [if_neg hc] at h
      rcases hrest : pieces rest with _ | ⟨first, others⟩
      · exact absurd hrest (pieces_ne_nil rest)
      · rw [hrest] at h ih
        rcases List.mem_cons.mp h with rfl | h
        · exact (ih List.mem_cons_self).cons_cons c
        · exact (ih (List.mem_cons_of_mem _ h)).cons c

/-- A component of a path is no longer than the path. -/
theorem size_le_of_mem_components {path component : String} (h : component ∈ components path) :
    component.utf8ByteSize ≤ path.utf8ByteSize := by
  obtain ⟨piece, hpiece, rfl⟩ := List.mem_map.mp (List.mem_filter.mp h).1
  rw [Page.utf8ByteSize_eq, Page.utf8ByteSize_eq, String.toList_ofList]
  exact Page.length_bytesOf_le (sublist_of_mem_pieces hpiece)

end Path

/-- What stands on a way beyond where it starts is one of its components. -/
theorem Place.mem_of_foldl_step {components start place : List String} {name : String}
    (hlength : start.length ≤ place.length) {more : List String}
    (h : components.foldl step start = place ++ name :: more) : name ∈ components := by
  induction components using List.reverseRecOn generalizing more with
  | nil =>
    have := congrArg List.length h
    rw [List.foldl_nil, List.length_append, List.length_cons] at this
    omega
  | append_singleton components component ih =>
    rw [List.foldl_append, List.foldl_cons, List.foldl_nil, step] at h
    rw [List.mem_append]
    split at h
    · -- the component takes the last one away, so there was one more
      set way := components.foldl step start with hway
      have hne : way ≠ [] := by
        rintro he
        rw [he] at h
        simp at h
      have hlast := List.dropLast_append_getLast hne
      rw [h, List.append_assoc, List.cons_append] at hlast
      exact .inl (ih hlast.symm)
    · rcases List.eq_nil_or_concat more with rfl | ⟨fewer, last, rfl⟩
      · have hend : [component] = [name] := (List.append_inj' h rfl).2
        rw [List.mem_singleton]
        exact .inr (List.cons.inj hend).1.symm
      · rw [List.concat_eq_append, ← List.cons_append, ← List.append_assoc] at h
        exact .inl (ih (List.append_inj' h rfl).1)

/-- A path that is shorter than a name does not lead to the entry of that name. -/
theorem Store.placeOf_append_ne {path name : String} (h : path.utf8ByteSize < name.utf8ByteSize) (s : Store)
    (folder : Path) : s.placeOf (folder.append path) ≠ s.placeOf folder ++ [name] := by
  intro hplace
  have hmem : name ∈ Path.components path := by
    rw [Path.append] at hplace
    split at hplace
    · rw [placeOf, List.foldl_append] at hplace
      exact Place.mem_of_foldl_step (Nat.le_refl _) hplace
    · next hroot =>
      have hstart : s.start (Path.read path) = [] := if_neg hroot
      rw [placeOf, hstart] at hplace
      exact Place.mem_of_foldl_step (Nat.zero_le _) hplace
  have := Path.size_le_of_mem_components hmem
  omega

/-- **Where a reference leads** from a page: the path is taken from the folder of the page, and the empty path is the
page itself. -/
def Store.follow (s : Store) (page : Path) (reference : String) : Option (List String) :=
  (Page.referredPath? reference).map fun path =>
    if path = "" then s.placeOf page else s.placeOf (page.parent.append path)

section Follow

variable {name page : String} {folder : Path}

/-- **A literal reference leads to the file of its name**, next to the page. -/
theorem Store.follow_of_literal (h : Page.IsLiteral name) (hne : name ≠ "") (hpage : Path.IsPlain page)
    (s : Store) (folder : Path) :
    s.follow (folder.append page) name = some (s.placeOf (folder.append name)) := by
  rw [follow, Page.referredPath?_of_literal h, Option.map_some, if_neg hne, Path.parent_append_plain hpage]

/-- **A name of one component leads to the file of the name only as a literal reference.** -/
theorem Store.follow_iff (hname : Path.IsPlain name) (hpage : Path.IsPlain page) (hother : name ≠ page)
    (s : Store) (folder : Path) :
    s.follow (folder.append page) name = some (s.placeOf (folder.append name)) ↔ Page.IsLiteral name := by
  constructor
  · intro h
    by_contra hliteral
    obtain ⟨path, hpath, hplace⟩ := Option.map_eq_some_iff.mp h
    have hsize := Page.size_lt_of_not_literal hliteral hpath
    rw [placeOf_append_plain hname] at hplace
    split at hplace
    · rw [placeOf_append_plain hpage] at hplace
      exact hother (List.cons.inj (List.append_cancel_left hplace)).1.symm
    · rw [Path.parent_append_plain hpage] at hplace
      exact placeOf_append_ne hsize s folder hplace
  · intro h
    have hne : name ≠ "" := by
      rintro rfl
      exact absurd hname (by decide)
    exact follow_of_literal h hne hpage s folder

end Follow

end DesignMarkup
