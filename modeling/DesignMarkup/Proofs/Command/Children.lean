import DesignMarkup.Proofs.Command.Placement

/-!
# `Proofs.Command.Children` — a fetch with and without the pages of the children

The frame is found and converted before its children are asked for, so what is known of it is decided by the
first two answers. What comes after it adds rules to the stylesheet and files whose names end as those of
pages do; the main page, its stylesheet and its report are written last. So the children can be left out
without the main page and the report becoming others.

## Contents

* `DecidedBy`, `decidedBy_fetchFrame`: **what a few answers decide**;
* `SameMain`, `PlannedFrom.sameMain`: **plans with the same main page**;
* `childFiles_getLast`, `report_absent`: where the files of the children do not stand;
* `skipping_children_keeps_main_output`: **the main output without the children**.
-/

namespace DesignMarkup

/-! ## What a few answers decide -/

section Decided

variable {α β ε : Type}

/-- The next answers at two moments are the same. -/
def Talk.SameAnswers (n : ℕ) (t t' : Talk) : Prop :=
  t.exchange.pending.take n = t'.exchange.pending.take n

/-- **The next `n` answers decide** what comes out of the talk, whatever was printed and asked before, and it
takes no others. -/
def DecidedBy (n : ℕ) (m : Talking α) : Prop :=
  ∀ k t t', t.SameAnswers (n + k) t' →
    (m.run t).1 = (m.run t').1 ∧ (m.run t).2.SameAnswers k (m.run t').2

/-- Fewer answers are the same too. -/
theorem Talk.SameAnswers.mono {n k : ℕ} {t t' : Talk} (h : t.SameAnswers (n + k) t') :
    t.SameAnswers k t' := by
  have htake := congrArg (List.take k) h
  rwa [List.take_take, List.take_take, Nat.min_eq_left (Nat.le_add_left k n)] at htake

/-- **A sequence is decided** by the answers to its first part and then those to its second. -/
theorem DecidedBy.bind {n l : ℕ} {m : Talking α} {f : α → Talking β} (h : DecidedBy n m)
    (hf : ∀ a, DecidedBy l (f a)) : DecidedBy (n + l) (m >>= f) := by
  intro k t t' hsame
  rw [Nat.add_assoc] at hsame
  obtain ⟨hresult, hrest⟩ := h (l + k) t t' hsame
  rcases hrun : m.run t with ⟨r, t₁⟩
  rcases hrun' : m.run t' with ⟨r', t₁'⟩
  rw [hrun, hrun'] at hresult hrest
  obtain rfl : r = r' := hresult
  cases r with
  | error e =>
    rw [run_bind_error hrun, run_bind_error hrun']
    exact ⟨rfl, hrest.mono⟩
  | ok a =>
    rw [run_bind_ok hrun, run_bind_ok hrun']
    exact hf a k t₁ t₁' hrest

/-- No answer is needed for a line, -/
theorem decidedBy_say (line : String) : DecidedBy 0 (say line) := by
  intro k t t' hsame
  rw [Nat.zero_add] at hsame
  exact ⟨rfl, hsame⟩

/-- nor for a result that is there. -/
theorem decidedBy_orFail (failure : ε → Failure) (r : Except ε α) : DecidedBy 0 (orFail failure r) := by
  intro k t t' hsame
  rw [Nat.zero_add] at hsame
  exact ⟨rfl, hsame⟩

/-- **A request takes one answer**, or there is none. -/
theorem decidedBy_send (c : Client) (url : String) (params : List (String × String)) :
    DecidedBy 1 (ask (c.send url params)) := by
  intro k t t' hsame
  obtain ⟨printed, sent, pending⟩ := t
  obtain ⟨printed', sent', pending'⟩ := t'
  rw [Talk.SameAnswers, Nat.add_comm 1 k] at hsame
  cases pending with
  | nil =>
    cases pending' with
    | nil => exact ⟨rfl, rfl⟩
    | cons r' rest' => cases hsame
  | cons r rest =>
    cases pending' with
    | nil => cases hsame
    | cons r' rest' =>
      obtain ⟨rfl, hrest⟩ := List.cons.inj hsame
      exact ⟨rfl, hrest⟩

theorem decidedBy_getFile (c : Client) (fileKey : Json) : DecidedBy 1 (ask (c.getFile fileKey)) :=
  decidedBy_send c _ _

/-- Nodes with ids that are no texts are not even asked for. -/
theorem decidedBy_getNodes (c : Client) (fileKey ids : Json) :
    DecidedBy 1 (ask (c.getNodes fileKey ids)) := by
  rcases hids : Client.joinIds ids with e | joined
  · have hask : ask (c.getNodes fileKey ids) = fun t => (.error (.api e), t) := by
      rw [Client.getNodes, hids]
      rfl
    rw [hask]
    exact fun k t t' hsame => ⟨rfl, hsame.mono⟩
  · have hask : ask (c.getNodes fileKey ids) =
        ask (c.send (Client.fileUrl fileKey ++ "/nodes") [("ids", joined)]) := by
      rw [Client.getNodes, hids]
      rfl
    rw [hask]
    exact decidedBy_send c _ _

/-- **Two answers decide the frame**: the file in which it is found, and its node. -/
theorem decidedBy_fetchFrame (s : Service) (a : FetchArgs) : DecidedBy 2 (fetchFrame s a) := by
  show DecidedBy (1 + (0 + (0 + (0 + (0 + (1 + 0)))))) _
  refine (decidedBy_getFile s.client s.fileKey).bind fun file => ?_
  refine (decidedBy_orFail _ _).bind fun page => ?_
  refine (decidedBy_say _).bind fun _ => ?_
  refine (decidedBy_orFail _ _).bind fun frame => ?_
  refine (decidedBy_say _).bind fun _ => ?_
  exact (decidedBy_getNodes _ _ _).bind fun data => decidedBy_orFail _ _

end Decided

/-! ## Plans with the same main page -/

section Plans

variable {s : Service} {a : FetchArgs} {c : Config}

/-- **The same main page**, with a stylesheet that has more rules at most. -/
structure SameMain (p p' : FetchPlan) : Prop where
  folder : p'.outputFolder = p.outputFolder
  result : p'.result = p.result
  options : p'.options = p.options
  rules : ∃ more, p'.styles.rules = p.styles.rules ++ more

/-- Without the children, nothing comes after the frame. -/
theorem fetchChildren_skipped {context after : Context} {children : List Node} {pages : List ChildPage}
    {t t' : Talk} (hskip : a.noChildren = true)
    (h : (fetchChildren s a c context children).run t = (.ok (pages, after), t')) : after = context := by
  rw [fetchChildren] at h
  by_cases hempty : children.isEmpty = true
  · rw [if_pos hempty] at h
    exact (Prod.mk.inj (Except.ok.inj (Prod.mk.inj h).1)).2.symm
  · rw [if_neg hempty, if_pos hskip] at h
    exact (Prod.mk.inj (Except.ok.inj (Prod.mk.inj h).1)).2.symm

/-- **The children only add rules** to those of the frame. -/
theorem ChildrenFetched.rules_append {o : Options} {frame : Node} {result : Result}
    {context after : Context} {children : List (ChildPage × Node)} {x : Exchange}
    (hconvert : (convert o (some frame)).run .fresh = (.ok result, context))
    (h : ChildrenFetched s a c context frame.children x children after) :
    ∃ more, after.styles.rules = context.styles.rules ++ more := by
  cases h with
  | none _ => exact ⟨[], (List.append_nil _).symm⟩
  | asked _ _ _ hread =>
    -- the frame was converted in a session of its own
    have hsession : sessionContext [.convert o (some frame)] = context := by
      rw [sessionContext, List.foldl_cons, List.foldl_nil, Step.after, hconvert]
    rw [← hsession]
    exact ConvertedAll.rules_append (hsession ▸ hread.convertedAll)

/-- **Plans with and without the children** have the same main page, if the first two answers are the same. -/
theorem PlannedFrom.sameMain {t t' : Talk} {p p' : FetchPlan} (hanswers : t.SameAnswers 2 t')
    (h : PlannedFrom s { a with noChildren := true } c t p)
    (h' : PlannedFrom s { a with noChildren := false } c t' p') : SameMain p p' := by
  cases h with
  | mk hframe hconvert htext hrest =>
  cases h' with
  | mk hframe' hconvert' htext' hrest' =>
  -- to find a frame, it does not matter whether the children are wanted
  have hsame := (decidedBy_fetchFrame s { a with noChildren := true } 0 t t' hanswers).1
  rw [hframe] at hsame
  change _ = ((fetchFrame s { a with noChildren := false }).run t').1 at hsame
  rw [hframe'] at hsame
  obtain rfl := Except.ok.inj hsame
  obtain ⟨hresult, rfl⟩ := Prod.mk.inj (hconvert.symm.trans hconvert')
  obtain rfl := Except.ok.inj hresult
  obtain rfl := Except.ok.inj (htext.symm.trans htext')
  obtain rfl := fetchChildren_skipped rfl hrest
  obtain ⟨children, -, hfetched⟩ := fetchChildren_ok hrest'
  exact ⟨rfl, rfl, rfl, hfetched.rules_append hconvert⟩

end Plans

/-! ## Where the files of the children do not stand -/

section Files

variable {s : Service} {a : FetchArgs} {c : Config}

/-- The file names of children end as those of pages do. -/
theorem Fetched.getLast_fileName {x : Exchange} {plan : FetchPlan} {frame : Node}
    {children : List (ChildPage × Node)} (h : Fetched s a c x plan frame children) :
    ∀ child ∈ plan.children, child.fileName.toList.getLast? = some 'l' := by
  intro child hchild
  obtain ⟨taken, hname⟩ := h.fileName_eq child hchild
  rw [hname]
  exact Page.getLast?_unusedFileName child.child.name taken

namespace FetchPlan

variable {p p' : FetchPlan} {s₀ s₁ s₂ : Store}

/-- So the paths of all files in the folder of the frame end as those of pages do. -/
theorem childFiles_getLast (hnames : ∀ child ∈ p.children, child.fileName.toList.getLast? = some 'l')
    {f : Page.OutputFile} (hf : f ∈ p.childFiles) :
    ∃ name, f.path = (Path.read p.childFolder).append name ∧ name.toList.getLast? = some 'l' := by
  rcases List.mem_append.mp hf with hchild | hindex
  · obtain ⟨child, hmem, rfl⟩ := List.mem_map.mp hchild
    exact ⟨child.fileName, rfl, hnames child hmem⟩
  · split at hindex
    · exact absurd hindex List.not_mem_nil
    · obtain rfl := List.mem_singleton.mp hindex
      exact ⟨"index.html", rfl, by decide⟩

/-- **Without components nothing is brought to the place of their report**, whatever the names of the frame and
its children lead to. -/
theorem report_absent (s₀ : Store)
    (hnames : ∀ child ∈ p.children, child.fileName.toList.getLast? = some 'l')
    (hnone : p.result.components.isEmpty = true) :
    ∀ f ∈ p.files,
      s₀.placeOf f.path ≠ s₀.placeOf ((Path.read p.outputFolder).append "components.json") := by
  intro f hf heq
  rw [Store.placeOf_append_plain (Page.index_names_plain _ (by decide))] at heq
  rcases List.mem_append.mp hf with hchild | hmain
  · -- the two places end in different characters
    obtain ⟨name, hpath, hlast⟩ := childFiles_getLast hnames hchild
    obtain ⟨before, last, hplace, hend⟩ :=
      Store.placeOf_append_getLast hlast (by decide) (by decide) s₀ (Path.read p.childFolder)
    rw [← hpath, heq] at hplace
    obtain rfl := (List.cons.inj (List.append_inj_right' hplace rfl)).1
    exact absurd hend (by decide)
  · obtain ⟨name, hname, hpath⟩ := Page.outputFiles_of_no_components hnone hmain
    have hother : name ∈ ["index.html", "styles.css", "components.json"] ∧ name ≠ "components.json" := by
      rcases List.mem_pair.mp hname with rfl | rfl
      · decide
      · decide
    rw [hpath, Store.placeOf_append_plain (Page.index_names_plain name hother.1)] at heq
    exact hother.2 (List.cons.inj (List.append_cancel_left heq)).1

/-- The files of the main page can be read once all files of a plan are written. -/
theorem read_mainFiles (h : Page.WroteAll s₀ p.files s₁) :
    ∀ f ∈ p.mainFiles, s₁.read f.path = .ok (Text.encodeUtf8 f.content) :=
  h.read_last (Page.nodup_outputFiles _ _ _ _ s₀)

theorem mainPage_mem_mainFiles (p : FetchPlan) : p.mainPage ∈ p.mainFiles :=
  Page.page_mem_outputFiles _ _ _ _ _

/-- **The report is the same** after plans with the same main page were written, or there is none. -/
theorem report_agrees (hmain : p.options.isChild = false) (hsame : SameMain p p')
    (hnames : ∀ child ∈ p.children, child.fileName.toList.getLast? = some 'l')
    (hnames' : ∀ child ∈ p'.children, child.fileName.toList.getLast? = some 'l')
    (h : Page.WroteAll s₀ p.files s₁) (h' : Page.WroteAll s₀ p'.files s₂) :
    (s₁.read ((Path.read p.outputFolder).append "components.json")).toOption =
      (s₂.read ((Path.read p.outputFolder).append "components.json")).toOption := by
  have hmain' : p'.options.isChild = false := hsame.options ▸ hmain
  by_cases hnone : p.result.components.isEmpty = true
  · -- both ways lead to the same place, and nothing was brought there
    have habsent := report_absent s₀ hnames hnone
    have habsent' := report_absent s₀ hnames' (hsame.result ▸ hnone)
    have hpage := h.resolves _ (List.mem_append_right p.childFiles p.mainPage_mem_mainFiles)
    have hpage' := h'.resolves _ (List.mem_append_right p'.childFiles p'.mainPage_mem_mainFiles)
    rw [mainPage] at hpage hpage'
    rw [hsame.folder] at habsent' hpage'
    have hindex : Path.IsPlain "index.html" := Page.index_names_plain _ (by decide)
    have hreport : Path.IsPlain "components.json" := Page.index_names_plain _ (by decide)
    exact h.read_untouched h' (Store.resolve_beside hindex hreport hpage hpage') habsent habsent'
  · have hsome : p.result.components.isEmpty = false := Bool.of_not_eq_true hnone
    have hsome' : p'.result.components.isEmpty = false := hsame.result ▸ hsome
    have hread := read_mainFiles h _ (Page.report_mem_outputFiles _ p.styles hmain hsome _)
    have hread' := read_mainFiles h' _ (Page.report_mem_outputFiles _ p'.styles hmain' hsome' _)
    rw [hsame.folder, hsame.result] at hread'
    rw [hread, hread']

end FetchPlan

end Files

/-! ## The main output without the children -/

/-- **The text of a stylesheet with more rules** begins with that of the stylesheet. -/
theorem Page.stylesheet_append {table table' : StyleTable} {more : List (String × Declarations)}
    (h : table'.rules = table.rules ++ more) (version : String) :
    ∃ rest, Page.stylesheet table' version = Page.stylesheet table version ++ rest := by
  obtain ⟨rules⟩ := table
  obtain ⟨rules'⟩ := table'
  obtain rfl : rules' = rules ++ more := h
  obtain ⟨rest, hrest⟩ := StyleTable.toCss_append rules more
  -- the comment at the top is the same
  exact ⟨rest, (congrArg (_ ++ ·) hrest).trans String.append_assoc.symm⟩

/-- **Leaving the children out changes no main output.** If a fetch succeeds both without and with the pages of
the children, from the same files and with the same first two answers, then the same page and the same
report, if any, are found in the output folder after both runs, and the stylesheet after the run with the
children is that after the run without them and perhaps more. -/
theorem skipping_children_keeps_main_output (a : FetchArgs) (c : Config) (env : Environment)
    (w₁ w₁' w₂ w₂' : World) (hfiles : w₁.files = w₂.files) (hanswers : w₁.talk.SameAnswers 2 w₂.talk)
    (h₁ : (fetchCommand { a with noChildren := true } c env).run w₁ = (.ok 0, w₁'))
    (h₂ : (fetchCommand { a with noChildren := false } c env).run w₂ = (.ok 0, w₂')) :
    ∃ folder, pathText (c.outputFolder a.output) = .ok folder ∧
      (∃ page, w₁'.files.read ((Path.read folder).append "index.html") = .ok page ∧
        w₂'.files.read ((Path.read folder).append "index.html") = .ok page) ∧
      (w₁'.files.read ((Path.read folder).append "components.json")).toOption =
        (w₂'.files.read ((Path.read folder).append "components.json")).toOption ∧
      ∃ sheet more,
        w₁'.files.read ((Path.read folder).append "styles.css") = .ok (Text.encodeUtf8 sheet) ∧
        w₂'.files.read ((Path.read folder).append "styles.css") =
          .ok (Text.encodeUtf8 (sheet ++ more)) := by
  obtain ⟨s, t₁, p₁, hservice₁, hexchange₁, -, hplanned₁, paths₁, hwrite₁⟩ := fetch_planned h₁
  obtain ⟨s₂, t₂, p₂, hservice₂, hexchange₂, -, hplanned₂, paths₂, hwrite₂⟩ := fetch_planned h₂
  obtain rfl : s = s₂ := Except.ok.inj (hservice₁.symm.trans hservice₂)
  have hsame : SameMain p₁ p₂ := by
    refine PlannedFrom.sameMain ?_ hplanned₁ hplanned₂
    rw [Talk.SameAnswers, hexchange₁, hexchange₂]
    exact hanswers
  obtain ⟨frame₁, children₁, hfetched₁⟩ := hplanned₁.fetched
  obtain ⟨frame₂, children₂, hfetched₂⟩ := hplanned₂.fetched
  have hwrote₁ := Page.writeAll_ok hwrite₁
  have hwrote₂ := hfiles ▸ Page.writeAll_ok hwrite₂
  have hfolder : pathText (c.outputFolder a.output) = .ok p₁.outputFolder := by
    cases hplanned₁ with
    | mk _ _ htext _ => exact htext
  have hpage₁ := FetchPlan.read_mainFiles hwrote₁ _ p₁.mainPage_mem_mainFiles
  have hpage₂ := FetchPlan.read_mainFiles hwrote₂ _ p₂.mainPage_mem_mainFiles
  have hsheet₁ := FetchPlan.read_mainFiles hwrote₁ _
    (Page.stylesheet_mem_outputFiles _ _ p₁.styles hfetched₁.isChild _)
  have hsheet₂ := FetchPlan.read_mainFiles hwrote₂ _
    (Page.stylesheet_mem_outputFiles _ _ p₂.styles hfetched₂.isChild _)
  obtain ⟨more, hrules⟩ := hsame.rules
  obtain ⟨rest, hrest⟩ := Page.stylesheet_append hrules p₁.options.bootstrapVersion
  rw [FetchPlan.mainPage] at hpage₁ hpage₂
  rw [hsame.folder, hsame.result, hsame.options] at hpage₂
  rw [hsame.folder, hsame.options, hrest] at hsheet₂
  exact ⟨p₁.outputFolder, hfolder, ⟨_, hpage₁, hpage₂⟩,
    FetchPlan.report_agrees hfetched₁.isChild hsame hfetched₁.getLast_fileName
      hfetched₂.getLast_fileName hwrote₁ hwrote₂,
    _, rest, hsheet₁, hsheet₂⟩

/-- The world before a fetch of the frame, without an answer about its children. -/
def frameWorld : World :=
  ⟨cardWorld.files, ⟨"", ⟨[], cardWorld.talk.exchange.pending.take 2⟩⟩⟩

theorem landing_keeps_main_output :
    ∃ w₁ w₂,
      (fetchCommand { landingArgs with noChildren := true } tokenConfig []).run frameWorld = (.ok 0, w₁) ∧
      (fetchCommand { landingArgs with noChildren := false } tokenConfig []).run cardWorld = (.ok 0, w₂) ∧
      ∃ page sheet more, w₁.files.read ((Path.read "out").append "index.html") = .ok page ∧
        w₂.files.read ((Path.read "out").append "index.html") = .ok page ∧
        (w₁.files.read ((Path.read "out").append "components.json")).toOption =
          (w₂.files.read ((Path.read "out").append "components.json")).toOption ∧
        w₁.files.read ((Path.read "out").append "styles.css") = .ok (Text.encodeUtf8 sheet) ∧
        w₂.files.read ((Path.read "out").append "styles.css") =
          .ok (Text.encodeUtf8 (sheet ++ more)) := by
  have hwithout : ((fetchCommand { landingArgs with noChildren := true } tokenConfig []).run
      frameWorld).1.toOption = some 0 := by
    decide +kernel
  have hwith : ((fetchCommand { landingArgs with noChildren := false } tokenConfig []).run
      cardWorld).1.toOption = some 0 := by
    decide +kernel
  have hout : (pathText (tokenConfig.outputFolder landingArgs.output)).toOption = some "out" := by
    decide +kernel
  have hanswers : frameWorld.talk.SameAnswers 2 cardWorld.talk := List.take_take
  have hrun := run_of_toOption hwithout
  have hrun' := run_of_toOption hwith
  obtain ⟨folder, hfolder, ⟨page, hpage, hpage'⟩, hreport, sheet, more, hsheet, hsheet'⟩ :=
    skipping_children_keeps_main_output landingArgs tokenConfig [] frameWorld _ cardWorld _ rfl
      hanswers hrun hrun'
  rw [hfolder] at hout
  obtain rfl : folder = "out" := Option.some.inj hout
  exact ⟨_, _, hrun, hrun', page, sheet, more, hpage, hpage', hreport, hsheet, hsheet'⟩

end DesignMarkup
