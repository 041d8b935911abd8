import DesignMarkup.Proofs.Command.Fetch
import DesignMarkup.Proofs.Page.Document
import DesignMarkup.Proofs.Page.NameSearch

/-!
# `Proofs.Command.Placement` — where the pages of a fetch stand

The paths of the pages are made of the names of the frame and of its children. If the slug of the frame is
one component of a path and no child has a slash in its name, each page of a child stands right in the
folder of the frame, next to the link index, and no file is written over another. Names with slashes are
not taken apart, so with them a page may stand anywhere, and over another.

## Contents

* `FetchPlan.files`, `writePlan_discard`: **what is written, in order**;
* `FetchPlan.Plain`, `FetchPlan.InPlace`, `inPlace_of_plain`: **names and places**;
* `fetch_planned`, `fetch_ok`: a fetch that succeeds;
* `fetch_keeps_pages_apart`: **all pages of a fetch stand where they belong**;
* `Page.Refers`, `fetch_links_resolve`: **the stylesheet that the pages of a fetch refer to**.
-/

namespace DesignMarkup

namespace FetchPlan

/-! ## What is written -/

section Files

variable (p : FetchPlan)

/-- The page of a child as a file. -/
def childFile (child : ChildPage) : Page.OutputFile :=
  ⟨(Path.read p.childFolder).append child.fileName, Page.pageText child.result child.options⟩

/-- The link index as a file. -/
def indexFile : Page.OutputFile :=
  ⟨(Path.read p.childFolder).append "index.html",
    Page.linkIndex p.frame (p.children.map ChildPage.link) p.options.bootstrapVersion⟩

/-- The files in the folder of the frame. -/
def childFiles : List Page.OutputFile :=
  p.children.map p.childFile ++ if p.children.isEmpty then [] else [p.indexFile]

/-- The files of the main page. -/
def mainFiles : List Page.OutputFile :=
  Page.outputFiles p.outputFolder p.result p.styles p.options "index.html"

/-- **All files of a plan** in the order in which they are written. -/
def files : List Page.OutputFile :=
  p.childFiles ++ p.mainFiles

end Files

end FetchPlan

/-- Files are written one after the other, first some and then others. -/
theorem Page.writeAll_append (xs ys : List Page.OutputFile) :
    Page.writeAll (xs ++ ys) = do
      let ps ← Page.writeAll xs
      let qs ← Page.writeAll ys
      return ps ++ qs := by
  induction xs with
  | nil => simp [Page.writeAll]
  | cons f rest ih => simp [Page.writeAll, ih]

/-- The pages of children are written as files, one for each child. -/
theorem writeChildren_eq {p : FetchPlan} {children : List ChildPage}
    (hchild : ∀ child ∈ children, child.options.isChild = true) :
    writeChildren p.childFolder p.styles children = Page.writeAll (children.map p.childFile) := by
  induction children with
  | nil => rfl
  | cons child rest ih =>
    obtain ⟨hfirst, hrest⟩ := List.forall_mem_cons.mp hchild
    -- the page of a child comes without a stylesheet
    have hone : Page.outputFiles p.childFolder child.result p.styles child.options child.fileName =
        [p.childFile child] := by
      rw [Page.outputFiles, if_pos hfirst]
      rfl
    rw [writeChildren, ih hrest, Page.writeConversion, hone, ← Page.writeAll_append]
    rfl

/-- The link index is written as a file, if there are children. -/
theorem writeIndex_discard (p : FetchPlan) :
    (fun _ => ()) <$> writeIndex p =
      (fun _ => ()) <$> Page.writeAll (if p.children.isEmpty then [] else [p.indexFile]) := by
  rw [writeIndex]
  split
  · rfl
  · simp [Page.writeAll, FetchPlan.indexFile, Path.read_joinText]

/-- **A plan is written as its files**, one after the other. -/
theorem writePlan_discard {p : FetchPlan} (hchild : ∀ child ∈ p.children, child.options.isChild = true) :
    (fun _ => ()) <$> writePlan p = (fun _ => ()) <$> Page.writeAll p.files := by
  -- what the link index yields is not looked at, nor what is yielded in the end
  have hindex : ∀ z : Filing Unit, _ := bind_of_discard (writeIndex_discard p)
  rw [writePlan, writeChildren_eq hchild, FetchPlan.files, FetchPlan.childFiles, Page.writeAll_append,
    Page.writeAll_append, FetchPlan.mainFiles, Page.writeConversion]
  simp only [map_bind, map_pure, bind_assoc, pure_bind, hindex]

theorem writePlan_ok {p : FetchPlan} (hchild : ∀ child ∈ p.children, child.options.isChild = true)
    {s s' : Store} {paths : List String} (h : (writePlan p).run s = (.ok paths, s')) :
    ∃ ps, (Page.writeAll p.files).run s = (.ok ps, s') :=
  run_ok_of_discard (writePlan_discard hchild) h

/-- The file names of the pages are taken in turn from the names of the children. -/
theorem ChildrenConverted.takenInTurn {c : Config} {nodes : List (String × Json)} {used : List String}
    {context after : Context} {children : List Node} {read : List (ChildPage × Node)}
    (h : ChildrenConverted c nodes used context children read after) :
    Page.TakenInTurn used (read.map fun p => p.1.child.name) (read.map fun p => p.1.fileName) := by
  induction h with
  | nil => exact .nil
  | skip _ _ _ ih => exact ih
  | @page used _ _ _ child _ _ _ _ _ _ _ _ _ _ ih =>
    have hfinds := Page.finds_unusedFileName child.layer.name used
    exact .cons hfinds hfinds.isFirstFree ih

/-- The pages of children are pages of children, and their file names are made from their names. -/
theorem ChildrenConverted.pages {c : Config} {nodes : List (String × Json)} {used : List String}
    {context after : Context} {children : List Node} {read : List (ChildPage × Node)}
    (h : ChildrenConverted c nodes used context children read after) :
    ∀ p ∈ read, p.1.options.isChild = true ∧
      ∃ taken, p.1.fileName = Page.unusedFileName p.1.child.name taken := by
  induction h with
  | nil => exact fun p hp => absurd hp List.not_mem_nil
  | skip _ _ _ ih => exact ih
  | @page used _ _ _ child _ _ _ _ _ _ _ _ _ _ ih =>
    intro p hp
    rcases List.mem_cons.mp hp with rfl | hp
    · exact ⟨rfl, used, rfl⟩
    · exact ih p hp

/-- The pages of the children of a plan have different file names of their own. -/
structure FetchPlan.Named (p : FetchPlan) : Prop where
  folder : p.childFolder = joinText p.outputFolder (Page.slug p.frame.characters)
  main : p.options.isChild = false
  child : ∀ c ∈ p.children, c.options.isChild = true
  index : ∀ c ∈ p.children, c.fileName ≠ "index.html"
  plain : ∀ c ∈ p.children, '/' ∉ c.child.name.toList → Path.IsPlain c.fileName
  nodup : (p.children.map ChildPage.fileName).Nodup

theorem ChildrenFetched.pages {s : Service} {a : FetchArgs} {c : Config} {context after : Context}
    {nodes : List Node} {x : Exchange} {children : List (ChildPage × Node)}
    (h : ChildrenFetched s a c context nodes x children after) :
    (∀ p ∈ children, p.1.options.isChild = true ∧
      ∃ taken, p.1.fileName = Page.unusedFileName p.1.child.name taken) ∧
    Page.TakenInTurn [] (children.map fun p => p.1.child.name) (children.map fun p => p.1.fileName) := by
  cases h with
  | none _ => exact ⟨fun p hp => absurd hp List.not_mem_nil, .nil⟩
  | asked _ _ _ hread => exact ⟨hread.pages, hread.takenInTurn⟩

/-- The file name of a page is made from the name of its child. -/
theorem Fetched.fileName_eq {s : Service} {a : FetchArgs} {c : Config} {x : Exchange} {plan : FetchPlan}
    {frame : Node} {children : List (ChildPage × Node)} (h : Fetched s a c x plan frame children) :
    ∀ child ∈ plan.children, ∃ taken, child.fileName = Page.unusedFileName child.child.name taken := by
  obtain ⟨-, -, -, -, hchildren⟩ := h
  exact List.forall_mem_map.mpr fun p hp => (hchildren.pages.1 p hp).2

theorem Fetched.named {s : Service} {a : FetchArgs} {c : Config} {x : Exchange} {plan : FetchPlan}
    {frame : Node} {children : List (ChildPage × Node)} (h : Fetched s a c x plan frame children) :
    plan.Named := by
  have hmain := h.isChild
  have hname := h.fileName_eq
  obtain ⟨-, -, -, -, hchildren⟩ := h
  obtain ⟨hpages, hturn⟩ := hchildren.pages
  constructor
  case folder => dsimp only
  case main => exact hmain
  case child => exact List.forall_mem_map.mpr fun p hp => (hpages p hp).1
  case index =>
    refine List.forall_mem_map.mpr fun p hp => (hturn.free _ ?_).2
    exact List.mem_map_of_mem (f := fun p => p.1.fileName) hp
  case plain =>
    intro child hchild hslash
    obtain ⟨taken, heq⟩ := hname child hchild
    rw [heq]
    exact Page.isPlain_unusedFileName hslash taken
  case nodup =>
    rw [List.map_map]
    exact hturn.nodup

/-! ## Names and places -/

namespace FetchPlan

/-- **Plain names**: the slug of the frame is one component of a path, and no child that has a page has a
slash in its name. -/
structure Plain (p : FetchPlan) : Prop where
  frame : Path.IsPlain (Page.slug p.frame.characters)
  children : ∀ c ∈ p.children, '/' ∉ c.child.name.toList

/-- **All files stand where they belong**: inside the output folder, the pages of the children and the link
index right in the folder of the frame there, and no two at one place. -/
structure InPlace (p : FetchPlan) (s : Store) : Prop where
  inside : ∀ f ∈ p.files, ∃ names, names ≠ [] ∧
    s.placeOf f.path = s.placeOf (Path.read p.outputFolder) ++ names
  direct : ∀ f ∈ p.childFiles, ∃ name,
    s.placeOf f.path = s.placeOf (Path.read p.outputFolder) ++ [Page.slug p.frame.characters, name]
  apart : (p.files.map fun f => s.placeOf f.path).Nodup

section Places

variable {p : FetchPlan} {s : Store}

/-- The file names in the folder of the frame. -/
def childNames (p : FetchPlan) : List String :=
  p.children.map ChildPage.fileName ++ if p.children.isEmpty then [] else ["index.html"]

/-- The folder of the frame. -/
theorem placeOf_childFolder (hnamed : p.Named) (hslug : Path.IsPlain (Page.slug p.frame.characters)) :
    s.placeOf (Path.read p.childFolder) =
      s.placeOf (Path.read p.outputFolder) ++ [Page.slug p.frame.characters] := by
  rw [hnamed.folder, Path.read_joinText]
  exact Store.placeOf_append_plain hslug s _

/-- A plain name in the folder of the frame. -/
theorem placeOf_child {name : String} (hnamed : p.Named)
    (hslug : Path.IsPlain (Page.slug p.frame.characters)) (hname : Path.IsPlain name) :
    s.placeOf ((Path.read p.childFolder).append name) =
      s.placeOf (Path.read p.outputFolder) ++ [Page.slug p.frame.characters, name] := by
  rw [Store.placeOf_append_plain hname, placeOf_childFolder hnamed hslug, List.append_assoc]
  rfl

/-- The places of the files in the folder of the frame. -/
theorem places_childFiles (hnamed : p.Named) (h : p.Plain) :
    (p.childFiles.map fun f => s.placeOf f.path) = p.childNames.map fun name =>
      s.placeOf (Path.read p.outputFolder) ++ [Page.slug p.frame.characters, name] := by
  have hindex : Path.IsPlain "index.html" := by decide +kernel
  rw [childFiles, childNames, List.map_append, List.map_append, List.map_map, List.map_map]
  congr 1
  · refine List.map_congr_left fun c hc => ?_
    exact placeOf_child hnamed h.frame (hnamed.plain c hc (h.children c hc))
  · split
    · rfl
    · exact congrArg ([·]) (placeOf_child hnamed h.frame hindex)

theorem nodup_childNames (hnamed : p.Named) : p.childNames.Nodup := by
  rw [childNames]
  split
  · rw [List.append_nil]
    exact hnamed.nodup
  · refine hnamed.nodup.append (List.nodup_singleton _) fun name hname hindex => ?_
    obtain ⟨c, hc, rfl⟩ := List.mem_map.mp hname
    exact hnamed.index c hc (List.mem_singleton.mp hindex)

/-- **Plain names make files stand where they belong.** -/
theorem inPlace_of_plain (hnamed : p.Named) (h : p.Plain) (s : Store) : p.InPlace s := by
  obtain ⟨names, -, hmain⟩ := Page.places_outputFiles p.outputFolder p.result p.styles p.options s
  rw [← mainFiles] at hmain
  have hchild := places_childFiles (s := s) hnamed h
  have hdirect : ∀ f ∈ p.childFiles, ∃ name, s.placeOf f.path =
      s.placeOf (Path.read p.outputFolder) ++ [Page.slug p.frame.characters, name] := by
    intro f hf
    have hmem : s.placeOf f.path ∈ p.childFiles.map fun f => s.placeOf f.path := List.mem_map_of_mem hf
    rw [hchild] at hmem
    obtain ⟨name, -, hplace⟩ := List.mem_map.mp hmem
    exact ⟨name, hplace.symm⟩
  refine ⟨fun f hf => ?_, hdirect, ?_⟩
  · rcases List.mem_append.mp hf with hf | hf
    · obtain ⟨name, hplace⟩ := hdirect f hf
      exact ⟨_, List.cons_ne_nil _ _, hplace⟩
    · have hmem : s.placeOf f.path ∈ p.mainFiles.map fun f => s.placeOf f.path := List.mem_map_of_mem hf
      rw [hmain] at hmem
      obtain ⟨name, -, hplace⟩ := List.mem_map.mp hmem
      exact ⟨[name], List.cons_ne_nil _ _, hplace.symm⟩
  · -- the pages of the children stand one folder below the main page
    rw [files, List.map_append]
    refine List.Nodup.append ?_ (Page.nodup_outputFiles _ _ _ _ s) ?_
    · rw [hchild]
      refine (nodup_childNames hnamed).map fun a b hab => ?_
      exact (List.cons.inj (List.cons.inj (List.append_cancel_left hab)).2).1
    · rw [hchild, hmain]
      intro place hbelow hbeside
      obtain ⟨a, -, rfl⟩ := List.mem_map.mp hbelow
      obtain ⟨b, -, hab⟩ := List.mem_map.mp hbeside
      exact List.cons_ne_nil _ _ (List.cons.inj (List.append_cancel_left hab)).2.symm

end Places

end FetchPlan

/-! ## A fetch that succeeds -/

section Run

variable {a : FetchArgs} {c : Config} {env : Environment} {w w' : World}

/-- A fetch that succeeds has taken the steps to a plan and written its files, one after the other. -/
theorem fetch_planned (h : (fetchCommand a c env).run w = (.ok 0, w')) :
    ∃ s t plan, serviceOf c env a.fileKey [tokenHint] = .ok s ∧ t.exchange = w.talk.exchange ∧
      a.plan c env w.talk = some plan ∧ PlannedFrom s a c t plan ∧
      ∃ paths, (Page.writeAll plan.files).run w.files = (.ok paths, w'.files) := by
  obtain ⟨m, paths, hsettled, hrun⟩ := (fetchCommand_twoPhase h).written_of_ok
  obtain ⟨plan, hplan, rfl⟩ := Option.map_eq_some_iff.mp hsettled
  obtain ⟨s, t, hservice, hexchange, hplanned⟩ := FetchArgs.plan_planned hplan
  obtain ⟨frame, children, hfetched⟩ := hplanned.fetched
  exact ⟨s, t, plan, hservice, hexchange, hplan, hplanned, writePlan_ok hfetched.named.child hrun⟩

/-- So it has fetched what stands behind the plan. -/
theorem fetch_ok (h : (fetchCommand a c env).run w = (.ok 0, w')) :
    ∃ s plan frame children, serviceOf c env a.fileKey [tokenHint] = .ok s ∧
      a.plan c env w.talk = some plan ∧ Fetched s a c w.talk.exchange plan frame children ∧
      ∃ paths, (Page.writeAll plan.files).run w.files = (.ok paths, w'.files) := by
  obtain ⟨s, t, plan, hservice, hexchange, hplan, hplanned, hwrite⟩ := fetch_planned h
  obtain ⟨frame, children, hfetched⟩ := hplanned.fetched
  exact ⟨s, plan, frame, children, hservice, hplan, hexchange ▸ hfetched, hwrite⟩

end Run

/-- **All pages of a fetch stand where they belong.** A fetch that succeeds has written the files of a plan,
one after the other. If the names are plain, each of them stands in the output folder, those of the children
right in the folder of the frame there, and no two at one place; so each of them can be read in the end, and
outside the output folder no file has changed. -/
theorem fetch_keeps_pages_apart (a : FetchArgs) (c : Config) (env : Environment) (w w' : World)
    (h : (fetchCommand a c env).run w = (.ok 0, w')) :
    ∃ s plan frame children, serviceOf c env a.fileKey [tokenHint] = .ok s ∧
      a.plan c env w.talk = some plan ∧ Fetched s a c w.talk.exchange plan frame children ∧
      (∃ paths, (Page.writeAll plan.files).run w.files = (.ok paths, w'.files)) ∧
      (plan.Plain → plan.InPlace w.files ∧
        (∀ f ∈ plan.files, w'.files.read f.path = .ok (Text.encodeUtf8 f.content)) ∧
        ∀ place, ¬w.files.placeOf (Path.read plan.outputFolder) <+: place →
          w'.files.fileAt place = w.files.fileAt place) := by
  obtain ⟨s, plan, frame, children, hservice, hplan, hfetched, paths, hrun⟩ := fetch_ok h
  refine ⟨s, plan, frame, children, hservice, hplan, hfetched, ⟨paths, hrun⟩, fun hplain => ?_⟩
  have hwrote := Page.writeAll_ok hrun
  have hplace := FetchPlan.inPlace_of_plain hfetched.named hplain w.files
  refine ⟨hplace, hwrote.read hplace.apart, fun place houtside => ?_⟩
  rw [hwrote.fileAt]
  refine Page.lastAt_of_forall_ne fun f hf heq => houtside ?_
  obtain ⟨names, -, hinside⟩ := hplace.inside f hf
  rw [← heq, hinside]
  exact List.prefix_append _ _

/-! ### Names of children -/

/-- A frame with a text of the given name. -/
def framing (name : String) : Json :=
  nodeData "1:1" "Landing" "FRAME" [("children", .array [nodeData "1:2" name "TEXT" []])]

/-- The world before a fetch of such a frame. -/
def framingWorld (name : String) : World :=
  ⟨.empty ["home"], ⟨"", ⟨[],
    [⟨200, .json (.object [("document", .object [("children", .array [
        nodeData "0:1" "Design" "CANVAS" [("children", .array [framing name])]])])])⟩,
      nodesResponse [("1:1", framing name)],
      nodesResponse [("1:2", nodeData "1:2" name "TEXT" [])]]⟩⟩⟩

theorem headline_pages_apart :
    ∃ w', (fetchCommand landingArgs tokenConfig []).run (framingWorld "Head Line") = (.ok 0, w') ∧
      ∃ plan, landingArgs.plan tokenConfig [] (framingWorld "Head Line").talk = some plan ∧
        plan.Plain ∧ plan.InPlace (framingWorld "Head Line").files ∧
        ∀ f ∈ plan.files, w'.files.read f.path = .ok (Text.encodeUtf8 f.content) := by
  have hfetch : ((fetchCommand landingArgs tokenConfig []).run
      (framingWorld "Head Line")).1.toOption = some 0 := by
    decide +kernel
  have hnames : (landingArgs.plan tokenConfig [] (framingWorld "Head Line").talk).map (fun plan =>
      (decide (Path.IsPlain (Page.slug plan.frame.characters)),
        decide (∀ c ∈ plan.children, '/' ∉ c.child.name.toList))) = some (true, true) := by
    decide +kernel
  have hrun := run_of_toOption hfetch
  obtain ⟨s, plan, frame, children, -, hplan, -, -, hplain⟩ := fetch_keeps_pages_apart _ _ _ _ _ hrun
  rw [hplan] at hnames
  obtain ⟨hframe, hchildren⟩ := Prod.mk.inj (Option.some.inj hnames)
  have hnamed : plan.Plain := ⟨of_decide_eq_true hframe, of_decide_eq_true hchildren⟩
  exact ⟨_, hrun, plan, hplan, hnamed, (hplain hnamed).1, (hplain hnamed).2.1⟩

/-- **A page of a child is lost.** The page of a child with the name `../Index` stands beside the main page, at
the place of it, and the main page is written over it. -/
theorem upperIndex_page_lost :
    ∃ w' plan, (fetchCommand landingArgs tokenConfig []).run (framingWorld "../Index") = (.ok 0, w') ∧
      landingArgs.plan tokenConfig [] (framingWorld "../Index").talk = some plan ∧
      ¬plan.InPlace (framingWorld "../Index").files ∧
      ∃ f ∈ plan.childFiles, w'.files.read f.path ≠ .ok (Text.encodeUtf8 f.content) := by
  have hfetch : ((fetchCommand landingArgs tokenConfig []).run
      (framingWorld "../Index")).1.toOption = some 0 := by
    decide +kernel
  have hplaces : (landingArgs.plan tokenConfig [] (framingWorld "../Index").talk).map (fun plan =>
      decide (plan.files.map fun f => (framingWorld "../Index").files.placeOf f.path).Nodup) =
        some false := by
    decide +kernel
  have hlost : (landingArgs.plan tokenConfig [] (framingWorld "../Index").talk).map (fun plan =>
      plan.childFiles.any fun f => decide ((((fetchCommand landingArgs tokenConfig []).run
        (framingWorld "../Index")).2.files.read f.path).toOption ≠ some (Text.encodeUtf8 f.content))) =
        some true := by
    decide +kernel
  obtain ⟨-, plan, -, -, -, hplan, -, -⟩ := fetch_ok (run_of_toOption hfetch)
  rw [hplan] at hplaces hlost
  refine ⟨_, plan, run_of_toOption hfetch, hplan, fun hplace => ?_, ?_⟩
  · exact of_decide_eq_false (Option.some.inj hplaces) hplace.apart
  · obtain ⟨f, hf, hne⟩ := List.any_eq_true.mp (Option.some.inj hlost)
    refine ⟨f, hf, fun hread => of_decide_eq_true hne ?_⟩
    rw [hread]
    rfl

/-! ## References to the stylesheet -/

/-- The place that a reference leads to from the folder of a page. -/
def Store.placeFrom (s : Store) (page : Path) (reference : String) : List String :=
  (Path.components reference).foldl Place.step (s.placeOf page).dropLast

/-- **The page refers to a stylesheet at a place**: its own link leads there, which a reader finds in its text
if the release of the style framework is written without tags. -/
def Page.Refers (s : Store) (version : String) (sheet : List String) (f : Page.OutputFile) : Prop :=
  ∃ body title isChild, f.content = Page.document body title isChild version ∧
    s.placeFrom f.path (Page.stylesheetHref isChild) = sheet ∧
    ('<' ∉ version.toList → Page.ownStylesheet? f.content = some (Page.stylesheetHref isChild))

namespace FetchPlan

/-- The main page as a file. -/
def mainPage (p : FetchPlan) : Page.OutputFile :=
  ⟨(Path.read p.outputFolder).append "index.html", Page.pageText p.result p.options⟩

/-- The place of the stylesheet of a plan. -/
def sheetPlace (p : FetchPlan) (s : Store) : List String :=
  s.placeOf ((Path.read p.outputFolder).append "styles.css")

theorem sheetPlace_eq (p : FetchPlan) (s : Store) :
    p.sheetPlace s = s.placeOf (Path.read p.outputFolder) ++ ["styles.css"] :=
  Store.placeOf_append_plain (Page.index_names_plain _ (by decide)) s _

variable {p : FetchPlan} {s : Store}

/-- The main page refers to the stylesheet beside it. -/
theorem mainPage_refers (hnamed : p.Named) :
    Page.Refers s p.options.bootstrapVersion (p.sheetPlace s) p.mainPage := by
  refine ⟨p.result.html, p.options.title, false, ?_, ?_, fun hversion => ?_⟩
  · rw [mainPage, Page.pageText, hnamed.main]
  · have hindex : Path.IsPlain "index.html" := Page.index_names_plain _ (by decide)
    have hcomponents : Path.components (Page.stylesheetHref false) = ["styles.css"] := by decide +kernel
    rw [Store.placeFrom, mainPage, Store.placeOf_append_plain hindex, List.dropLast_concat, hcomponents,
      sheetPlace_eq]
    rfl
  · rw [mainPage, Page.pageText, hnamed.main]
    exact Page.ownStylesheet_document _ _ _ hversion

/-- From a plain name in the folder of the frame the stylesheet is one folder up. -/
theorem placeFrom_child (hnamed : p.Named) (hslug : Path.IsPlain (Page.slug p.frame.characters))
    {name : String} (hname : Path.IsPlain name) :
    s.placeFrom ((Path.read p.childFolder).append name) (Page.stylesheetHref true) = p.sheetPlace s := by
  have hcomponents : Path.components (Page.stylesheetHref true) = ["..", "styles.css"] := by decide +kernel
  rw [Store.placeFrom, Store.placeOf_append_plain hname, placeOf_childFolder hnamed hslug,
    List.dropLast_concat, hcomponents, List.foldl_cons, List.foldl_cons, List.foldl_nil, sheetPlace_eq,
    Place.step, Place.step, if_pos rfl, List.dropLast_concat, if_neg (by decide)]

/-- The link index refers to the stylesheet, if the slug of the frame is plain. -/
theorem indexFile_refers (hnamed : p.Named) (hslug : Path.IsPlain (Page.slug p.frame.characters)) :
    Page.Refers s p.options.bootstrapVersion (p.sheetPlace s) p.indexFile := by
  have hindex : Path.IsPlain "index.html" := Page.index_names_plain _ (by decide)
  exact ⟨_, _, true, rfl, placeFrom_child hnamed hslug hindex,
    fun hversion => Page.ownStylesheet_document _ _ _ hversion⟩

theorem childFile_content (hnamed : p.Named) {child : ChildPage} (hchild : child ∈ p.children) :
    (p.childFile child).content = Page.document child.result.html child.options.title true
      child.options.bootstrapVersion := by
  rw [childFile, Page.pageText, hnamed.child child hchild]

/-- The page of a child names the stylesheet one folder up, wherever it stands. -/
theorem ownStylesheet_childFile (hnamed : p.Named) {child : ChildPage} (hchild : child ∈ p.children)
    (hversion : '<' ∉ child.options.bootstrapVersion.toList) :
    Page.ownStylesheet? (p.childFile child).content = some (Page.stylesheetHref true) := by
  rw [childFile_content hnamed hchild]
  exact Page.ownStylesheet_document _ _ _ hversion

/-- The page of a child refers to the stylesheet, if the names are plain. -/
theorem childFile_refers (hnamed : p.Named) (hslug : Path.IsPlain (Page.slug p.frame.characters))
    {child : ChildPage} (hchild : child ∈ p.children) (hname : '/' ∉ child.child.name.toList) :
    Page.Refers s child.options.bootstrapVersion (p.sheetPlace s) (p.childFile child) :=
  ⟨_, _, true, childFile_content hnamed hchild,
    placeFrom_child hnamed hslug (hnamed.plain child hchild hname),
    ownStylesheet_childFile hnamed hchild⟩

end FetchPlan

/-- **The stylesheet that the pages of a fetch refer to.** After a fetch that succeeds the stylesheet stands in
the output folder, and the main page refers to it. So does the link index if the slug of the frame is one
component of a path, and so does then the page of each child without a slash in its name. -/
theorem fetch_links_resolve (a : FetchArgs) (c : Config) (env : Environment) (w w' : World)
    (h : (fetchCommand a c env).run w = (.ok 0, w')) :
    ∃ s plan frame children, serviceOf c env a.fileKey [tokenHint] = .ok s ∧
      a.plan c env w.talk = some plan ∧ Fetched s a c w.talk.exchange plan frame children ∧
      (∃ paths, (Page.writeAll plan.files).run w.files = (.ok paths, w'.files)) ∧
      w'.files.fileAt (plan.sheetPlace w.files) =
        some (Text.encodeUtf8 (Page.stylesheet plan.styles plan.options.bootstrapVersion)) ∧
      Page.Refers w.files plan.options.bootstrapVersion (plan.sheetPlace w.files) plan.mainPage ∧
      (Path.IsPlain (Page.slug plan.frame.characters) →
        Page.Refers w.files plan.options.bootstrapVersion (plan.sheetPlace w.files) plan.indexFile ∧
        ∀ child ∈ plan.children, '/' ∉ child.child.name.toList →
          Page.Refers w.files child.options.bootstrapVersion (plan.sheetPlace w.files)
            (plan.childFile child)) := by
  obtain ⟨s, plan, frame, children, hservice, hplan, hfetched, paths, hrun⟩ := fetch_ok h
  have hnamed := hfetched.named
  refine ⟨s, plan, frame, children, hservice, hplan, hfetched, ⟨paths, hrun⟩, ?_,
    FetchPlan.mainPage_refers hnamed, fun hslug => ⟨FetchPlan.indexFile_refers hnamed hslug,
      fun child hchild hname => FetchPlan.childFile_refers hnamed hslug hchild hname⟩⟩
  -- the stylesheet comes with the main page, after all pages of children
  have hsheet := Page.stylesheet_mem_outputFiles plan.outputFolder plan.result plan.styles hfetched.isChild
    "index.html"
  rw [(Page.writeAll_ok hrun).fileAt, FetchPlan.files, Page.lastAt_append]
  exact Page.lastAt_of_nodup (Page.nodup_outputFiles _ _ _ _ _) hsheet

theorem headline_links_resolve :
    ∃ w', (fetchCommand landingArgs tokenConfig []).run (framingWorld "Head Line") = (.ok 0, w') ∧
      ∃ plan, landingArgs.plan tokenConfig [] (framingWorld "Head Line").talk = some plan ∧
        plan.children.length = 1 ∧
        ∀ child ∈ plan.children, Page.Refers (framingWorld "Head Line").files
          child.options.bootstrapVersion (plan.sheetPlace (framingWorld "Head Line").files)
          (plan.childFile child) := by
  have hfetch : ((fetchCommand landingArgs tokenConfig []).run
      (framingWorld "Head Line")).1.toOption = some 0 := by
    decide +kernel
  have hnames : (landingArgs.plan tokenConfig [] (framingWorld "Head Line").talk).map (fun plan =>
      (decide (Path.IsPlain (Page.slug plan.frame.characters)),
        decide (∀ c ∈ plan.children, '/' ∉ c.child.name.toList), plan.children.length)) =
        some (true, true, 1) := by
    decide +kernel
  have hrun := run_of_toOption hfetch
  obtain ⟨s, plan, frame, children, -, hplan, -, -, -, -, hplain⟩ := fetch_links_resolve _ _ _ _ _ hrun
  rw [hplan] at hnames
  obtain ⟨hframe, hnames⟩ := Prod.mk.inj (Option.some.inj hnames)
  obtain ⟨hchildren, hlength⟩ := Prod.mk.inj hnames
  refine ⟨_, hrun, plan, hplan, hlength, fun child hchild => ?_⟩
  exact (hplain (of_decide_eq_true hframe)).2 child hchild (of_decide_eq_true hchildren child hchild)

/-- **A page of a child refers to no stylesheet.** The page of a child with the name `Icons/Home` stands one
folder further down, so its link leads into the folder of the frame, where no stylesheet stands. -/
theorem iconsHome_link_broken :
    ∃ w' plan, (fetchCommand landingArgs tokenConfig []).run (framingWorld "Icons/Home") = (.ok 0, w') ∧
      landingArgs.plan tokenConfig [] (framingWorld "Icons/Home").talk = some plan ∧
      ∃ child ∈ plan.children, ∃ reference,
        Page.ownStylesheet? (plan.childFile child).content = some reference ∧
        (framingWorld "Icons/Home").files.placeFrom (plan.childFile child).path reference ≠
          plan.sheetPlace (framingWorld "Icons/Home").files ∧
        w'.files.fileAt ((framingWorld "Icons/Home").files.placeFrom
          (plan.childFile child).path reference) = none := by
  have hfetch : ((fetchCommand landingArgs tokenConfig []).run
      (framingWorld "Icons/Home")).1.toOption = some 0 := by
    decide +kernel
  have hbroken : (landingArgs.plan tokenConfig [] (framingWorld "Icons/Home").talk).map (fun plan =>
      plan.children.any fun child =>
        let place := (framingWorld "Icons/Home").files.placeFrom (plan.childFile child).path
          (Page.stylesheetHref true)
        decide ('<' ∉ child.options.bootstrapVersion.toList ∧
          place ≠ plan.sheetPlace (framingWorld "Icons/Home").files ∧
          ((fetchCommand landingArgs tokenConfig []).run
            (framingWorld "Icons/Home")).2.files.fileAt place = none)) = some true := by
    decide +kernel
  obtain ⟨_, plan, _, _, _, hplan, hfetched, _⟩ := fetch_ok (run_of_toOption hfetch)
  rw [hplan] at hbroken
  obtain ⟨child, hchild, hall⟩ := List.any_eq_true.mp (Option.some.inj hbroken)
  obtain ⟨hversion, hplace, hnone⟩ := of_decide_eq_true hall
  exact ⟨_, plan, run_of_toOption hfetch, hplan, child, hchild, Page.stylesheetHref true,
    FetchPlan.ownStylesheet_childFile hfetched.named hchild hversion, hplace, hnone⟩

end DesignMarkup
