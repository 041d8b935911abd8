import DesignMarkup.Command.Convert
import DesignMarkup.Proofs.Page.Output

/-!
# `Proofs.Page.Editions` — conversions written into one folder, one after the other

A design is converted again and again into the same folder, as often as it is saved. Each time the page and the
stylesheet are written over, but the report of components is written only if there are any, and it is never taken
away. So what the folder holds under a name is what the last conversion brought there that brought anything at all.
The page and the stylesheet are those of the last conversion; the report is that of the last one with components,
which need not be the last one.

## Contents

* `Edition`, `Edition.write`, `Edition.brings`: a conversion that is written into a folder;
* `fileAt_write`: **what one writing does to the folder**;
* `Bare`, `Held`, `lastBrought`, `Held.fileAt`: **what a folder holds after any number of them**;
* `editions_fresh_iff`: **when the folder is as if it had been empty**.
-/

namespace DesignMarkup.Page

/-! ## A conversion that is written into a folder -/

/-- A conversion that is no child, with the stylesheet that comes with it. -/
structure Edition where
  result : Result
  styles : StyleTable
  options : Options
  top : options.isChild = false

namespace Edition

/-- Writes an edition into a folder. -/
def write (folder : String) (e : Edition) : Filing (List String) :=
  writeConversion folder e.result e.styles e.options "index.html"

/-- The texts of an edition by their names in the folder. -/
def texts (e : Edition) : List (String × String) :=
  [("index.html", pageText e.result e.options), ("styles.css", stylesheet e.styles e.options.bootstrapVersion)] ++
    if e.result.components = [] then [] else [("components.json", componentsText e.result.components)]

/-- What an edition brings to the folder under a name, if anything. -/
def brings (e : Edition) (name : String) : Option ByteArray :=
  (Entries.get? name e.texts).map Text.encodeUtf8

/-- The texts of an edition as files. -/
theorem outputFiles_eq (folder : String) (e : Edition) :
    outputFiles folder e.result e.styles e.options "index.html" =
      e.texts.map fun t => ⟨(Path.read folder).append t.1, t.2⟩ := by
  unfold outputFiles texts
  rw [if_neg (by rw [e.top]; decide)]
  by_cases h : e.result.components = []
  · rw [if_pos h, if_pos (List.isEmpty_iff.mpr h)]
    rfl
  · rw [if_neg h, if_neg fun hempty => h (List.isEmpty_iff.mp hempty)]
    rfl

/-- The names of an edition are some of three. -/
theorem names_sublist (e : Edition) :
    (Entries.keys e.texts).Sublist ["index.html", "styles.css", "components.json"] := by
  unfold texts
  by_cases h : e.result.components = []
  · rw [if_pos h]
    exact (List.sublist_append_left ["index.html", "styles.css"] ["components.json"])
  · rw [if_neg h]
    exact List.Sublist.refl _

/-- Every edition brings a page and a stylesheet. -/
theorem isSome_brings (e : Edition) {name : String} (h : name ∈ ["index.html", "styles.css"]) :
    (e.brings name).isSome = true := by
  rcases List.mem_pair.mp h with rfl | rfl
  · rfl
  · rfl

/-- An edition brings a report exactly if it has components. -/
theorem brings_report_eq_none_iff (e : Edition) :
    e.brings "components.json" = none ↔ e.result.components = [] := by
  unfold brings texts
  by_cases h : e.result.components = []
  · rw [if_pos h]
    exact iff_of_true rfl h
  · rw [if_neg h]
    exact iff_of_false nofun h

end Edition

/-! ## What one writing does to the folder -/

/-- The place of an entry of a folder. -/
def entryPlace (s : Store) (folder name : String) : List String :=
  s.placeOf (Path.read folder) ++ [name]

/-- The place of an entry depends on the working folder only. -/
theorem entryPlace_of_here {s s' : Store} (h : s'.workingFolder = s.workingFolder) (folder name : String) :
    entryPlace s' folder name = entryPlace s folder name := by
  unfold entryPlace Store.placeOf Store.start
  rw [h]

section Write

variable {folder : String} {s s' : Store} {e : Edition} {paths : List String}

/-- Of texts with different names the one with the name of an entry is brought there. -/
theorem lastAt_entry {texts : List (String × String)} (hnodup : (Entries.keys texts).Nodup)
    (hplain : ∀ own ∈ Entries.keys texts, Path.IsPlain own) (s : Store) (folder name : String)
    (found : Option ByteArray) :
    lastAt s (entryPlace s folder name) found
        (texts.map fun t => ⟨(Path.read folder).append t.1, t.2⟩) =
      ((Entries.get? name texts).map Text.encodeUtf8).or found := by
  induction texts generalizing found with
  | nil => exact Option.none_or.symm
  | cons t texts ih =>
    obtain ⟨own, text⟩ := t
    obtain ⟨hnew, hnodup⟩ := List.nodup_cons.mp hnodup
    obtain ⟨hown, hplain⟩ := List.forall_mem_cons.mp hplain
    rw [List.map_cons, lastAt, List.foldl_cons, ← lastAt, ih hnodup hplain,
      Store.placeOf_append_plain hown, entryPlace, Entries.get?]
    by_cases hname : own = name
    · -- no later text has this name
      rw [if_pos (congrArg _ (congrArg ([·]) hname)), if_pos hname, Entries.get?_of_not_mem (hname ▸ hnew)]
      rfl
    · have hplace : s.placeOf (Path.read folder) ++ [own] ≠ s.placeOf (Path.read folder) ++ [name] :=
        fun heq => hname (List.cons.inj (List.append_cancel_left heq)).1
      rw [if_neg hplace, if_neg hname]

/-- **After an edition was written** the folder holds what it brings, and under all other names what was there. -/
theorem fileAt_write (h : (e.write folder).run s = (.ok paths, s')) (name : String) :
    s'.fileAt (entryPlace s folder name) = (e.brings name).or (s.fileAt (entryPlace s folder name)) := by
  have hnodup : (Entries.keys e.texts).Nodup := e.names_sublist.nodup (by decide)
  have hplain : ∀ own ∈ Entries.keys e.texts, Path.IsPlain own := fun own hown =>
    index_names_plain own (e.names_sublist.subset hown)
  rw [(writeAll_ok h).fileAt, e.outputFiles_eq, lastAt_entry hnodup hplain, Edition.brings]

/-- The working folder stays when an edition is written. -/
theorem here_write (h : (e.write folder).run s = (.ok paths, s')) : s'.workingFolder = s.workingFolder :=
  (writeAll_ok h).keeps.here

end Write

/-! ## What a folder holds -/

/-- A folder has no entries. -/
def Bare (folder : String) (s : Store) : Prop :=
  ∀ name, s.find (entryPlace s folder name) = none

/-- **A folder holds editions**: it was bare, then these were written into it, one after the other, and between them
nothing has changed in it, whatever has changed elsewhere. -/
inductive Held (folder : String) : List Edition → Store → Prop where
  | bare {s : Store} (h : Bare folder s) : Held folder [] s
  | elsewhere {es : List Edition} {s s' : Store} (h : Held folder es s)
    (here : s'.workingFolder = s.workingFolder)
    (same : ∀ name, s'.fileAt (entryPlace s folder name) = s.fileAt (entryPlace s folder name)) :
    Held folder es s'
  | written {es : List Edition} {s s' : Store} {e : Edition} {paths : List String} (h : Held folder es s)
    (run : (e.write folder).run s = (.ok paths, s')) : Held folder (es ++ [e]) s'

/-- What the last of several editions brought under a name that brought anything. -/
def lastBrought (name : String) : List Edition → Option ByteArray
  | [] => none
  | e :: es => (lastBrought name es).or (e.brings name)

section Held

variable {folder : String} {es : List Edition} {s : Store} {name : String}

theorem lastBrought_concat (name : String) (es : List Edition) (e : Edition) :
    lastBrought name (es ++ [e]) = (e.brings name).or (lastBrought name es) := by
  induction es with
  | nil =>
    show Option.or none (e.brings name) = (e.brings name).or none
    rw [Option.none_or, Option.or_none]
  | cons first es ih =>
    rw [List.cons_append, lastBrought, lastBrought, ih, Option.or_assoc]

theorem lastBrought_eq_none_iff : lastBrought name es = none ↔ ∀ e ∈ es, e.brings name = none := by
  induction es with
  | nil => simp [lastBrought]
  | cons first es ih =>
    rw [lastBrought, Option.or_eq_none_iff, ih, List.forall_mem_cons, and_comm]

theorem Bare.fileAt (h : Bare folder s) (name : String) : s.fileAt (entryPlace s folder name) = none := by
  unfold Store.fileAt
  rw [h name]

/-- **A folder holds under a name what was brought there last.** -/
theorem Held.fileAt (h : Held folder es s) (name : String) :
    s.fileAt (entryPlace s folder name) = lastBrought name es := by
  induction h with
  | bare hbare => exact hbare.fileAt name
  | elsewhere _ hhere hsame ih =>
    rw [entryPlace_of_here hhere, hsame, ih]
  | written _ hrun ih =>
    rw [entryPlace_of_here (here_write hrun), fileAt_write hrun, ih, lastBrought_concat]

end Held

/-! ## A folder as if it had been empty -/

/-- **When the folder is as if it had been empty.** An edition is written into a folder that holds others, and into
another that is bare. Then both hold the same page and the same stylesheet, and they hold the same report exactly if
the edition has components, or none of those before it has any. The folder that was bare holds a report exactly if
the edition has components; the other one holds a report if any edition has, and without components it is the report
that was there. -/
theorem editions_fresh_iff {folder other : String} {es : List Edition} {e : Edition} {s s' t t' : Store}
    {paths others : List String} (hheld : Held folder es s) (hbare : Bare other t)
    (hwrite : (e.write folder).run s = (.ok paths, s')) (hfresh : (e.write other).run t = (.ok others, t')) :
    (∀ name ∈ ["index.html", "styles.css"],
      s'.fileAt (entryPlace s folder name) = t'.fileAt (entryPlace t other name) ∧
        (s'.fileAt (entryPlace s folder name)).isSome = true) ∧
    (s'.fileAt (entryPlace s folder "components.json") = t'.fileAt (entryPlace t other "components.json") ↔
      e.result.components ≠ [] ∨ ∀ earlier ∈ es, earlier.result.components = []) ∧
    ((t'.fileAt (entryPlace t other "components.json")).isSome = true ↔ e.result.components ≠ []) ∧
    ((s'.fileAt (entryPlace s folder "components.json")).isSome = true ↔
      ∃ any ∈ es ++ [e], any.result.components ≠ []) ∧
    (e.result.components = [] → s'.fileAt (entryPlace s folder "components.json") =
      s.fileAt (entryPlace s folder "components.json")) := by
  have hlast : ∀ name, s'.fileAt (entryPlace s folder name) = (e.brings name).or (lastBrought name es) := by
    intro name
    rw [fileAt_write hwrite, hheld.fileAt]
  have hown : ∀ name, t'.fileAt (entryPlace t other name) = e.brings name := by
    intro name
    rw [fileAt_write hfresh, hbare.fileAt, Option.or_none]
  have hreport := e.brings_report_eq_none_iff
  have hearlier : lastBrought "components.json" es = none ↔ ∀ earlier ∈ es, earlier.result.components = [] := by
    rw [lastBrought_eq_none_iff]
    exact forall₂_congr fun earlier _ => earlier.brings_report_eq_none_iff
  refine ⟨?_, ?_, ?_, ?_, ?_⟩
  · intro name hname
    obtain ⟨content, hcontent⟩ := Option.isSome_iff_exists.mp (e.isSome_brings hname)
    rw [hlast, hown, hcontent, Option.some_or]
    exact ⟨rfl, rfl⟩
  · rw [hlast, hown]
    by_cases hnone : e.result.components = []
    · rw [hreport.mpr hnone, Option.none_or, hearlier]
      simp [hnone]
    · obtain ⟨content, hcontent⟩ := Option.ne_none_iff_exists'.mp (mt hreport.mp hnone)
      rw [hcontent, Option.some_or]
      exact iff_of_true rfl (.inl hnone)
  · rw [hown, Option.isSome_iff_ne_none, Ne, hreport]
  · rw [hlast, Option.isSome_iff_ne_none, Ne, Option.or_eq_none_iff, hreport, hearlier]
    simp only [List.mem_append, List.mem_singleton, or_and_right, exists_or, exists_eq_left]
    by_cases hnone : e.result.components = []
    · simp [hnone]
    · simp [hnone]
  · intro hnone
    rw [fileAt_write hwrite, hreport.mpr hnone, Option.none_or]

/-! ### Editions of a card -/

/-- A badge. -/
def badge : Json :=
  .object [("id", .string "1:2"), ("name", .string "Badge"), ("type", .string "COMPONENT")]

/-- The edition of a card with the given children. -/
def cardEdition? (children : List Json) : Option Edition := do
  let root ← (Node.read (.object [("id", .string "1:1"), ("name", .string "Card"), ("type", .string "FRAME"),
    ("children", .array children)])).toOption
  let (result, styles) ← (convertAlone {} root).toOption
  return ⟨result, styles, {}, rfl⟩

/-- The working folder has no folder for the output. -/
theorem bare_empty : Bare "out" (Store.empty ["home"]) := by
  have hempty : Store.empty ["home"] = ⟨["home"], [(["home"], .folder)]⟩ := by decide +kernel
  have hplace : (Store.empty ["home"]).placeOf (Path.read "out") = ["home", "out"] := by decide +kernel
  intro name
  rw [entryPlace, hplace, hempty]
  rfl

theorem badge_added_report_fresh :
    ∃ e e' s s' t', cardEdition? [] = some e ∧ cardEdition? [badge] = some e' ∧ Held "out" [e] s ∧
      (∃ paths, (e'.write "out").run s = (.ok paths, s')) ∧
      (∃ paths, (e'.write "out").run (Store.empty ["home"]) = (.ok paths, t')) ∧
      s'.fileAt (entryPlace s "out" "components.json") =
        t'.fileAt (entryPlace (Store.empty ["home"]) "out" "components.json") := by
  have hruns : ((cardEdition? []).bind fun e => (cardEdition? [badge]).map fun e' =>
      let first := (e.write "out").run (Store.empty ["home"])
      decide (first.1.toOption = some ["out/index.html", "out/styles.css"] ∧
        ((e'.write "out").run first.2).1.toOption =
          some ["out/index.html", "out/styles.css", "out/components.json"] ∧
        ((e'.write "out").run (Store.empty ["home"])).1.toOption =
          some ["out/index.html", "out/styles.css", "out/components.json"] ∧
        e'.result.components ≠ [])) = some true := by
    decide +kernel
  obtain ⟨e, he, hruns⟩ := Option.bind_eq_some_iff.mp hruns
  obtain ⟨e', he', hruns⟩ := Option.map_eq_some_iff.mp hruns
  obtain ⟨hfirst, hsecond, hfresh, hsome⟩ := of_decide_eq_true hruns
  have hheld : Held "out" [e] _ := .written (.bare bare_empty) (run_of_toOption hfirst)
  obtain ⟨-, hreport, -⟩ := editions_fresh_iff hheld bare_empty (run_of_toOption hsecond) (run_of_toOption hfresh)
  exact ⟨e, e', _, _, _, he, he', hheld, ⟨_, run_of_toOption hsecond⟩, ⟨_, run_of_toOption hfresh⟩,
    hreport.mpr (.inl hsome)⟩

/-- **A report that is stale.** A card had a badge, and then it has none. After the second edition the folder still
holds the report of the badge, where a folder that had been empty holds none. -/
theorem badge_removed_report_stale :
    ∃ e e' s s' t', cardEdition? [badge] = some e ∧ cardEdition? [] = some e' ∧
      (∃ paths, (e.write "out").run (Store.empty ["home"]) = (.ok paths, s)) ∧
      (∃ paths, (e'.write "out").run s = (.ok paths, s')) ∧
      (∃ paths, (e'.write "out").run (Store.empty ["home"]) = (.ok paths, t')) ∧
      e'.result.components = [] ∧
      s'.fileAt ["home", "out", "components.json"] = some (Text.encodeUtf8 (componentsText e.result.components)) ∧
      t'.fileAt ["home", "out", "components.json"] = none := by
  have hruns : ((cardEdition? [badge]).bind fun e => (cardEdition? []).map fun e' =>
      let first := (e.write "out").run (Store.empty ["home"])
      let second := (e'.write "out").run first.2
      let fresh := (e'.write "out").run (Store.empty ["home"])
      decide (first.1.toOption = some ["out/index.html", "out/styles.css", "out/components.json"] ∧
        second.1.toOption = some ["out/index.html", "out/styles.css"] ∧
        fresh.1.toOption = some ["out/index.html", "out/styles.css"] ∧ e'.result.components = [] ∧
        second.2.fileAt ["home", "out", "components.json"] =
          some (Text.encodeUtf8 (componentsText e.result.components)) ∧
        fresh.2.fileAt ["home", "out", "components.json"] = none)) = some true := by
    decide +kernel
  obtain ⟨e, he, hruns⟩ := Option.bind_eq_some_iff.mp hruns
  obtain ⟨e', he', hruns⟩ := Option.map_eq_some_iff.mp hruns
  obtain ⟨hfirst, hsecond, hfresh, hnone, hstale, hclear⟩ := of_decide_eq_true hruns
  exact ⟨e, e', _, _, _, he, he', ⟨_, run_of_toOption hfirst⟩, ⟨_, run_of_toOption hsecond⟩,
    ⟨_, run_of_toOption hfresh⟩, hnone, hstale, hclear⟩

end DesignMarkup.Page
