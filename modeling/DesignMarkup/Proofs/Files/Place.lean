import DesignMarkup.Proofs.Files.Store

/-!
# `Proofs.Files.Place` — the place that a path names

A way through a store passes folders one by one, and it fails where one of them is not there. If it does
not fail, it ends where the components alone lead, double dots taking the one before them away. So the
place of a path that was followed can be told from the path as it is written.

## Contents

* `pieces_append_slash`, `read_joinText`: **written paths below written folders**;
* `components_getLast`, `placeOf_append_getLast`: how a path ends;
* `Path.IsPlain`, `isPlain_of_not_mem`: names that are one component;
* `Store.placeOf`, `resolve_eq_placeOf`: **the place of a path**;
* `placeOf_append`, `placeOf_append_plain`: places below places;
* `Store.resolve_beside`: entries of one folder in two stores;
* `Store.fileAt`, `toOption_read`: the file at a place.
-/

namespace DesignMarkup

namespace Path

/-! ## Written paths -/

theorem pieces_ne_nil (cs : List Char) : pieces cs ≠ [] := by
  cases cs with
  | nil => exact List.cons_ne_nil _ _
  | cons c rest =>
    rw [pieces]
    split
    · exact List.cons_ne_nil _ _
    · split
      · exact List.cons_ne_nil _ _
      · exact List.cons_ne_nil _ _

/-- A slash parts the pieces before it from those after it. -/
theorem pieces_append_slash (cs ds : List Char) :
    pieces (cs ++ '/' :: ds) = pieces cs ++ pieces ds := by
  induction cs with
  | nil => rfl
  | cons c rest ih =>
    rw [List.cons_append, pieces, pieces, ih]
    by_cases hc : c = '/'
    · rw [if_pos hc, if_pos hc]
      rfl
    · rw [if_neg hc, if_neg hc]
      rcases hrest : pieces rest with _ | ⟨first, others⟩
      · exact absurd hrest (pieces_ne_nil rest)
      · rfl

/-- A text without slashes is one piece. -/
theorem pieces_of_not_mem {cs : List Char} (h : '/' ∉ cs) : pieces cs = [cs] := by
  induction cs with
  | nil => rfl
  | cons c rest ih =>
    have hc : c ≠ '/' := fun he => h (he ▸ List.mem_cons_self)
    rw [pieces, if_neg hc, ih fun hrest => h (List.mem_cons_of_mem _ hrest)]

/-- The last character of a text ends its last piece, unless it is a slash. -/
theorem pieces_concat (cs : List Char) {c : Char} (h : c ≠ '/') :
    ∃ before last, pieces (cs ++ [c]) = before ++ [last ++ [c]] := by
  induction cs with
  | nil =>
    refine ⟨[], [], ?_⟩
    rw [List.nil_append, pieces, if_neg h]
    rfl
  | cons d rest ih =>
    obtain ⟨before, last, hrest⟩ := ih
    rw [List.cons_append, pieces, hrest]
    by_cases hd : d = '/'
    · exact ⟨[] :: before, last, if_pos hd⟩
    · rw [if_neg hd]
      cases before with
      | nil => exact ⟨[], d :: last, rfl⟩
      | cons first others => exact ⟨(d :: first) :: others, last, rfl⟩

/-- The last character of a text ends its last component, unless it is a slash or a dot. -/
theorem components_getLast {s : String} {c : Char} (hs : s.toList.getLast? = some c) (hslash : c ≠ '/')
    (hdot : c ≠ '.') : ∃ before last, components s = before ++ [last] ∧ last.toList.getLast? = some c := by
  obtain ⟨cs, hcs⟩ := List.getLast?_eq_some_iff.mp hs
  obtain ⟨before, last, hpieces⟩ := pieces_concat cs hslash
  have hlast : (String.ofList (last ++ [c])).toList.getLast? = some c := by
    rw [String.toList_ofList, List.getLast?_concat]
  -- the last piece is neither empty nor a dot, since neither of them ends in this character
  have hempty : String.ofList (last ++ [c]) ≠ "" := by
    intro he
    rw [he] at hlast
    cases hlast
  have hsingle : String.ofList (last ++ [c]) ≠ "." := by
    intro he
    rw [he] at hlast
    exact hdot (Option.some.inj hlast).symm
  refine ⟨(before.map String.ofList).filter fun p => p != "" && p != ".", _, ?_, hlast⟩
  rw [components, hcs, hpieces, List.map_append, List.filter_append, List.map_singleton]
  generalize String.ofList (last ++ [c]) = final at hempty hsingle
  simp [hempty, hsingle]

/-- The components of a text around a slash are those before it and those after it. -/
theorem components_append_slash (s t : String) :
    components (s ++ "/" ++ t) = components s ++ components t := by
  have hlist : (s ++ "/" ++ t).toList = s.toList ++ '/' :: t.toList := by
    rw [String.toList_append, String.toList_append, List.append_assoc]
    rfl
  rw [components, hlist, pieces_append_slash, List.map_append, List.filter_append]
  rfl

/-- What follows changes no root, unless a slash follows a slash. -/
theorem rootOf_append {s t : String} (hs : s ≠ "")
    (h : s.toList.getLast? ≠ some '/' ∨ t.toList.head? ≠ some '/') : rootOf (s ++ t) = rootOf s := by
  have hne : s.toList ≠ [] := fun he => hs (String.toList_inj.mp he)
  rw [rootOf, rootOf, String.toList_append]
  generalize s.toList = cs at h hne
  generalize t.toList = ds at h
  -- only the first three characters count, and at least one of them is there already
  rcases cs with _ | ⟨a, _ | ⟨b, _ | ⟨c, rest⟩⟩⟩
  · exact absurd rfl hne
  · by_cases ha : a = '/'
    · rcases ds with _ | ⟨x, more⟩
      · rfl
      · have hx : x ≠ '/' := by simpa [ha] using h
        simp [ha, hx]
    · simp [ha]
  · by_cases ha : a = '/'
    · by_cases hb : b = '/'
      · rcases ds with _ | ⟨x, more⟩
        · rfl
        · have hx : x ≠ '/' := by simpa [hb] using h
          simp [ha, hb, hx]
      · simp [ha, hb]
    · simp [ha]
  · by_cases ha : a = '/'
    · by_cases hb : b = '/'
      · by_cases hc : c = '/'
        · simp [ha, hb, hc]
        · simp [ha, hb, hc]
      · simp [ha, hb]
    · simp [ha]

/-- A text is a relative path unless it begins with a slash. -/
theorem rootOf_eq_empty_iff {s : String} : rootOf s = "" ↔ s.toList.head? ≠ some '/' := by
  rw [rootOf]
  split
  · next h => simp [h]
  · next h => simp [h]
  · next h => simp [h]
  · next h =>
    refine iff_of_true rfl fun hhead => ?_
    obtain ⟨rest, hrest⟩ := List.head?_eq_some_iff.mp hhead
    exact h rest hrest

/-- **A path that is joined to a folder as text** is the path taken from the folder. -/
theorem read_joinText (folder path : String) :
    read (joinText folder path) = (read folder).append path := by
  rw [joinText, append]
  split
  · next habsolute =>
    have hroot : (read path).root ≠ "" := fun he => rootOf_eq_empty_iff.mp he habsolute
    simp [hroot]
  · next hrelative =>
    have hroot : (read path).root = "" := rootOf_eq_empty_iff.mpr hrelative
    simp only [hroot, if_true]
    by_cases hempty : folder = ""
    · subst hempty
      rw [if_pos (.inl rfl), String.empty_append]
      exact congrArg (Path.mk · _) hroot
    · by_cases hslash : folder.toList.getLast? = some '/'
      · obtain ⟨cs, hcs⟩ := List.getLast?_eq_some_iff.mp hslash
        have hfolder : folder = String.ofList cs ++ "/" := by
          apply String.toList_inj.mp
          rw [hcs, String.toList_append, String.toList_ofList]
          rfl
        have hparts : components (folder ++ path) = components folder ++ components path := by
          have hpure : components folder = components (String.ofList cs) := by
            have h := components_append_slash (String.ofList cs) ""
            rw [String.append_empty, ← hfolder] at h
            exact h.trans (List.append_nil _)
          rw [hpure, hfolder, components_append_slash]
        rw [if_pos (.inr hslash), read, rootOf_append hempty (.inr hrelative), hparts]
        rfl
      · rw [if_neg (by simp [hempty, hslash]), read, components_append_slash, String.append_assoc,
          rootOf_append hempty (.inl hslash)]
        rfl

/-! ## Plain names -/

/-- The name is one component of a path. -/
def IsPlain (name : String) : Prop :=
  read name = ⟨"", [name]⟩ ∧ name ≠ ".."

instance (name : String) : Decidable (IsPlain name) :=
  inferInstanceAs (Decidable (_ ∧ _))

/-- **A name without slashes is one component**, unless it is empty or has a meaning of its own. -/
theorem isPlain_of_not_mem {name : String} (h : '/' ∉ name.toList) (hempty : name ≠ "")
    (hdot : name ≠ ".") (hup : name ≠ "..") : IsPlain name := by
  have hroot : rootOf name = "" :=
    rootOf_eq_empty_iff.mpr fun hhead => h (List.mem_of_head? hhead)
  have hparts : components name = [name] := by
    rw [components, pieces_of_not_mem h]
    simp [hempty, hdot]
  refine ⟨?_, hup⟩
  rw [read, hroot, hparts]

theorem append_plain {name : String} (h : IsPlain name) (p : Path) :
    p.append name = ⟨p.root, p.parts ++ [name]⟩ := by
  simp [append, h.1]

theorem parent_append_plain {name : String} (h : IsPlain name) (p : Path) :
    (p.append name).parent = p := by
  simp [append_plain h, parent]

end Path

/-! ## Places -/

namespace Store

section Places

variable {s s' : Store} {p : Path} {place q : List String}

/-- **The place that a path names** in a store: its components from where it starts, double dots resolved,
whatever stands there. -/
def placeOf (s : Store) (p : Path) : List String :=
  p.parts.foldl Place.step (s.start p)

/-- A way that leads somewhere leads where its components say. -/
theorem walk_eq_foldl {xs : List String} (h : s.walk place xs = .ok q) :
    q = xs.foldl Place.step place := by
  induction xs generalizing place with
  | nil => exact (Except.ok.inj h).symm
  | cons c rest ih =>
    rw [walk] at h
    split at h
    · cases h
    · cases h
    · rw [List.foldl_cons, Place.step]
      split at h
      · next hup =>
        rw [if_pos hup]
        exact ih h
      · next hup =>
        rw [if_neg hup]
        split at h
        · cases h
        · exact ih h

/-- **A path that is resolved names its place.** -/
theorem resolve_eq_placeOf (h : s.resolve p = .ok q) : q = s.placeOf p :=
  walk_eq_foldl (walk_of_resolve h)

/-- Places depend on the working folder only. -/
theorem placeOf_of_keeps (h : s.Keeps s') (p : Path) : s'.placeOf p = s.placeOf p := by
  rw [placeOf, placeOf, start_of_keeps h]

/-- A relative path is followed from the place of the folder. -/
theorem placeOf_append {path : String} (h : (Path.read path).root = "") (s : Store) (p : Path) :
    s.placeOf (p.append path) = (Path.read path).parts.foldl Place.step (s.placeOf p) := by
  rw [Path.append, if_pos h, placeOf, List.foldl_append]
  rfl

/-- A plain name is an entry of the folder. -/
theorem placeOf_append_plain {name : String} (h : Path.IsPlain name) (s : Store) (p : Path) :
    s.placeOf (p.append name) = s.placeOf p ++ [name] := by
  rw [placeOf_append (by rw [h.1]), h.1, List.foldl_cons, List.foldl_nil, Place.step, if_neg h.2]

/-- The last character of a path ends the place that it names, unless it is a slash or a dot. -/
theorem placeOf_append_getLast {path : String} {c : Char} (hpath : path.toList.getLast? = some c)
    (hslash : c ≠ '/') (hdot : c ≠ '.') (s : Store) (p : Path) :
    ∃ before last, s.placeOf (p.append path) = before ++ [last] ∧ last.toList.getLast? = some c := by
  obtain ⟨before, last, hparts, hlast⟩ := Path.components_getLast hpath hslash hdot
  have hup : last ≠ ".." := by
    rintro rfl
    exact hdot (Option.some.inj hlast).symm
  -- whether or not the path is absolute, its last component comes last
  obtain ⟨above, habove⟩ : ∃ above, (p.append path).parts = above ++ [last] := by
    rw [Path.append, Path.read, hparts]
    dsimp only
    split
    · exact ⟨p.parts ++ before, (List.append_assoc _ _ _).symm⟩
    · exact ⟨before, rfl⟩
  refine ⟨above.foldl Place.step (s.start (p.append path)), last, ?_, hlast⟩
  rw [placeOf, habove, List.foldl_append, List.foldl_cons, List.foldl_nil, Place.step, if_neg hup]

/-- **Stores that agree on one entry of a folder** agree on where its other entries are. -/
theorem resolve_beside {t : Store} {name other : String} (hname : Path.IsPlain name)
    (hother : Path.IsPlain other) (hs : s.resolve (p.append name) = .ok place)
    (ht : t.resolve (p.append name) = .ok place) :
    s.resolve (p.append other) = t.resolve (p.append other) := by
  rw [Path.append_plain hname] at hs ht
  rw [Path.append_plain hother]
  -- in both stores the way to the folder ends at the same place
  obtain ⟨d, hway, hfolder, hd⟩ := walk_concat_eq_ok (walk_of_resolve hs)
  obtain ⟨d', hway', hfolder', hd'⟩ := walk_concat_eq_ok (walk_of_resolve ht)
  rw [if_neg hname.2] at hd hd'
  obtain rfl : d = d' := List.append_cancel_right (hd.symm.trans hd')
  obtain ⟨e, he, -⟩ | hwalk := resolve_cases ⟨p.root, p.parts ++ [other]⟩
  · rw [he, he]
  · have hfrom : s.walk (s.start ⟨p.root, p.parts ++ [other]⟩) p.parts = .ok d := hway
    have hfrom' : t.walk (t.start ⟨p.root, p.parts ++ [other]⟩) p.parts = .ok d := hway'
    rw [hwalk, hwalk, walk_append, walk_append, hfrom, hfrom', ok_bind, ok_bind, walk_singleton hfolder,
      walk_singleton hfolder']

/-! ## Files at places -/

/-- The content of the file at a place, if a file stands there. -/
def fileAt (s : Store) (place : List String) : Option ByteArray :=
  match s.find place with
  | some (.file content) => some content
  | _ => none

/-- What is read at a path is the file at the place to which it leads. -/
theorem toOption_read (s : Store) (p : Path) :
    (s.read p).toOption = (s.resolve p).toOption.bind s.fileAt := by
  rw [read]
  rcases s.resolve p with e | place
  · rfl
  · rw [ok_bind]
    show _ = s.fileAt place
    rw [fileAt]
    rcases s.find place with _ | ⟨content⟩ | _
    · rfl
    · rfl
    · rfl

theorem fileAt_eq_some_iff {b : ByteArray} : s.fileAt q = some b ↔ s.find q = some (.file b) := by
  rw [fileAt]
  split
  · next content hfind => simp [hfind]
  · next hno => exact iff_of_false nofun fun h => hno b h

end Places

end Store

end DesignMarkup
