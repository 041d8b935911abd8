import DesignMarkup.Proofs.Command.Phases
import DesignMarkup.Proofs.Command.Talk
import DesignMarkup.Proofs.Conversion.Shared

/-!
# `Proofs.Command.Fetch` — one stylesheet for all pages of a fetch

A plan that was made tells what was read and converted on the way to it: the frame first, in a fresh
context, and then its children in order, each in the context that the one before has left. The stylesheet
of the plan is that of the last context, so it has the rules of all pages, and it is written as it is, since
the main page comes last and its other files stand elsewhere.

## Contents

* `convertIn_ok`, `ChildrenConverted`, `convertChildren_ok`: the children that were converted;
* `Fetched`, `PlannedFrom`, `PlannedFrom.fetched`: **what stands behind a plan**;
* `fetch_shares_stylesheet`: **the stylesheet and the pages of a fetch**.
-/

namespace DesignMarkup

/-! ## The children that were converted -/

/-- A conversion as a step leaves the talk as it is. -/
theorem convertIn_ok {context after : Context} {o : Options} {root : Node} {result : Result}
    {t t' : Talk} (h : (convertIn context o root).run t = (.ok (result, after), t')) :
    (convert o (some root)).run context = (.ok result, after) ∧ t' = t := by
  rcases hrun : (convert o (some root)).run context with ⟨r, last⟩
  simp only [convertIn, hrun] at h
  obtain ⟨_, t₁, hfirst, hpure⟩ := ok_of_run_bind h
  obtain ⟨rfl, ht⟩ := orFail_ok hfirst
  obtain ⟨hpair, ht'⟩ := Prod.mk.inj hpure
  obtain ⟨rfl, rfl⟩ := Prod.mk.inj (Except.ok.inj hpair)
  exact ⟨rfl, ht'.symm.trans ht⟩

section Children

variable (c : Config) (nodes : List (String × Json))

/-- The settings of the page of a child. -/
def childOptions (l : Layer) : Options :=
  c.options { title := some l.name, isChild := some true }

/-- **Children converted in order**, from a context to another, with the page and the design of each. A
child without node data has none, and each page has the first file name that no page before it has. -/
inductive ChildrenConverted :
    (used : List String) → Context → List Node → List (ChildPage × Node) → Context → Prop where
  | nil {used : List String} {context : Context} : ChildrenConverted used context [] [] context
  | skip {used : List String} {context after : Context} {child : Node} {rest : List Node}
      {pages : List (ChildPage × Node)} {raw : Json} :
    childData nodes child.layer.id = .ok raw → raw.isTruthy = false →
    ChildrenConverted used context rest pages after →
    ChildrenConverted used context (child :: rest) pages after
  | page {used : List String} {context between after : Context} {child : Node} {rest : List Node}
      {pages : List (ChildPage × Node)} {raw : Json} {design : Node} {result : Result} :
    childData nodes child.layer.id = .ok raw → raw.isTruthy = true → Node.read raw = .ok design →
    (convert (childOptions c child.layer) (some design)).run context = (.ok result, between) →
    ChildrenConverted (Page.unusedFileName child.layer.name used :: used) between rest pages after →
    ChildrenConverted used context (child :: rest)
      ((⟨child.layer, result, childOptions c child.layer,
        Page.unusedFileName child.layer.name used⟩, design) :: pages) after

variable {c nodes}

/-- **What converting the children comes to**, if it succeeds. -/
theorem convertChildren_ok {total : Nat} {children : List Node} :
    ∀ {i : Nat} {used : List String} {context after : Context} {pages : List ChildPage} {t t' : Talk},
      (convertChildren c nodes total i used context children).run t = (.ok (pages, after), t') →
      ∃ read, read.map Prod.fst = pages ∧
        ChildrenConverted c nodes used context children read after := by
  -- the file names in use and the context change from child to child, so both stay general
  induction children with
  | nil =>
    intro i used context after pages t t' h
    obtain ⟨hpair, -⟩ := Prod.mk.inj h
    obtain ⟨rfl, rfl⟩ := Prod.mk.inj (Except.ok.inj hpair)
    exact ⟨[], rfl, .nil⟩
  | cons child rest ih =>
    intro i used context after pages t t' h
    rw [convertChildren] at h
    obtain ⟨raw, t₁, hraw, hcase⟩ := ok_of_run_bind h
    split at hcase
    · next htruthy =>
      rw [say_bind] at hcase
      obtain ⟨design, t₂, hread, hcase⟩ := ok_of_run_bind hcase
      obtain ⟨⟨result, between⟩, t₃, hconvert, hcase⟩ := ok_of_run_bind hcase
      obtain ⟨⟨others, last⟩, t₄, hrest, hpure⟩ := ok_of_run_bind hcase
      obtain ⟨rfl, rfl⟩ := Prod.mk.inj (Except.ok.inj (Prod.mk.inj hpure).1)
      obtain ⟨read, rfl, hchildren⟩ := ih hrest
      exact ⟨_ :: read, rfl, .page (orFail_ok hraw).1 htruthy (orFail_ok hread).1
        (convertIn_ok hconvert).1 hchildren⟩
    · next hfalsy =>
      rw [say_bind] at hcase
      obtain ⟨read, hpages, hchildren⟩ := ih hcase
      exact ⟨read, hpages, .skip (orFail_ok hraw).1 (Bool.of_not_eq_true hfalsy) hchildren⟩

/-- The conversion behind the page of a child. -/
def ChildPage.converted (p : ChildPage × Node) : Converted :=
  ⟨p.1.options, p.2, p.1.result⟩

/-- Children are converted one after the other. -/
theorem ChildrenConverted.convertedAll {used : List String} {context after : Context}
    {children : List Node} {read : List (ChildPage × Node)}
    (h : ChildrenConverted c nodes used context children read after) :
    ConvertedAll context (read.map ChildPage.converted) after := by
  induction h with
  | nil => exact .nil
  | skip _ _ _ ih => exact ih
  | page _ _ _ hconvert _ ih => exact .cons hconvert ih

end Children

/-! ## What stands behind a plan -/

section Plan

variable {s : Service} {a : FetchArgs} {c : Config}

/-- **The children of a frame**, from a context to another: none are asked for, or one response is about
all of them. -/
inductive ChildrenFetched (s : Service) (a : FetchArgs) (c : Config) (context : Context)
    (children : List Node) (x : Exchange) : List (ChildPage × Node) → Context → Prop where
  | none : children = [] ∨ a.noChildren = true → ChildrenFetched s a c context children x [] context
  | asked {detail : Json} {fields nodes : List (String × Json)} {read : List (ChildPage × Node)}
      {after : Context} {x' : Exchange} :
    (s.client.getNodes s.fileKey (.array (children.map fun n => .string n.layer.id))).run x =
      (.ok detail, x') →
    Lookup.fieldsOf detail = .ok fields →
    Lookup.fieldsOrNone (Json.fieldOrNull fields "nodes") = .ok nodes →
    ChildrenConverted c nodes [] context children read after →
    ChildrenFetched s a c context children x read after

theorem fetchChildren_ok {context after : Context} {children : List Node} {pages : List ChildPage}
    {t t' : Talk} (h : (fetchChildren s a c context children).run t = (.ok (pages, after), t')) :
    ∃ read, read.map Prod.fst = pages ∧
      ChildrenFetched s a c context children t.exchange read after := by
  rw [fetchChildren] at h
  split at h
  · next hempty =>
    obtain ⟨rfl, rfl⟩ := Prod.mk.inj (Except.ok.inj (Prod.mk.inj h).1)
    exact ⟨[], rfl, .none (.inl (List.isEmpty_iff.mp hempty))⟩
  · split at h
    · next hno =>
      obtain ⟨rfl, rfl⟩ := Prod.mk.inj (Except.ok.inj (Prod.mk.inj h).1)
      exact ⟨[], rfl, .none (.inr hno)⟩
    · rw [say_bind] at h
      obtain ⟨detail, t₁, hdetail, h⟩ := ok_of_run_bind h
      obtain ⟨fields, t₂, hfields, h⟩ := ok_of_run_bind h
      obtain ⟨nodes, t₃, hnodes, h⟩ := ok_of_run_bind h
      obtain ⟨read, hpages, hchildren⟩ := convertChildren_ok h
      have hanswer := ask_ok hdetail
      exact ⟨read, hpages, .asked hanswer (orFail_ok hfields).1 (orFail_ok hnodes).1 hchildren⟩

/-- **What stands behind a plan**, with the traffic from `x` on: the frame that was found, converted in a
fresh context, and its children after it. -/
inductive Fetched (s : Service) (a : FetchArgs) (c : Config) (x : Exchange) :
    FetchPlan → Node → List (ChildPage × Node) → Prop where
  | mk {t t₁ : Talk} {frame : Node} {result : Result} {context after : Context} {folder : String}
      {children : List (ChildPage × Node)} :
    t.exchange = x → (fetchFrame s a).run t = (.ok frame, t₁) →
    (convert (c.options { title := some a.frame.characters }) (some frame)).run .fresh =
      (.ok result, context) →
    pathText (c.outputFolder a.output) = .ok folder →
    ChildrenFetched s a c context frame.children t₁.exchange children after →
    Fetched s a c x {
      frame := a.frame
      outputFolder := folder
      childFolder := joinText folder (Page.slug a.frame.characters)
      result
      options := c.options { title := some a.frame.characters }
      styles := after.styles
      children := children.map Prod.fst } frame children

/-- **The steps to a plan** from a moment on: the frame is found and converted in a fresh context, the output
folder is named, and the children come in the context that the frame has left. -/
inductive PlannedFrom (s : Service) (a : FetchArgs) (c : Config) (t : Talk) : FetchPlan → Prop where
  | mk {t₁ t₂ : Talk} {frame : Node} {result : Result} {context after : Context} {folder : String}
      {pages : List ChildPage} :
    (fetchFrame s a).run t = (.ok frame, t₁) →
    (convert (c.options { title := some a.frame.characters }) (some frame)).run .fresh =
      (.ok result, context) →
    pathText (c.outputFolder a.output) = .ok folder →
    (fetchChildren s a c context frame.children).run t₁ = (.ok (pages, after), t₂) →
    PlannedFrom s a c t {
      frame := a.frame
      outputFolder := folder
      childFolder := joinText folder (Page.slug a.frame.characters)
      result
      options := c.options { title := some a.frame.characters }
      styles := after.styles
      children := pages }

theorem planFetch_ok {plan : FetchPlan} {t t' : Talk}
    (h : (planFetch s a c).run t = (.ok plan, t')) : PlannedFrom s a c t plan := by
  rw [planFetch] at h
  obtain ⟨frame, t₁, hframe, h⟩ := ok_of_run_bind h
  obtain ⟨⟨result, context⟩, t₂, hfirst, h⟩ := ok_of_run_bind h
  obtain ⟨folder, t₃, hfolder, h⟩ := ok_of_run_bind h
  obtain ⟨⟨pages, after⟩, t₄, hrest, hpure⟩ := ok_of_run_bind h
  obtain rfl := Except.ok.inj (Prod.mk.inj hpure).1
  obtain ⟨hconvert, ht₂⟩ := convertIn_ok hfirst
  obtain ⟨htext, ht₃⟩ := orFail_ok hfolder
  -- neither the conversion nor the name of the folder asks for anything
  rw [ht₃, ht₂] at hrest
  exact .mk hframe hconvert htext hrest

/-- The steps to a plan tell what stands behind it. -/
theorem PlannedFrom.fetched {plan : FetchPlan} {t : Talk} (h : PlannedFrom s a c t plan) :
    ∃ frame children, Fetched s a c t.exchange plan frame children := by
  obtain ⟨hframe, hconvert, htext, hrest⟩ := h
  obtain ⟨children, rfl, hchildren⟩ := fetchChildren_ok hrest
  exact ⟨_, children, .mk rfl hframe hconvert htext hchildren⟩

/-- After a failure that was told of there is no plan. -/
theorem fetchFailed_ne_some {fileKey : Json} {e : Failure} {plan : FetchPlan} {t t' : Talk}
    (h : (fetchFailed fileKey e).run t = (.ok (some plan), t')) : False := by
  unfold fetchFailed at h
  split at h
  · cases (Prod.mk.inj h).1
  · cases (Prod.mk.inj h).1
  · cases (Prod.mk.inj h).1

/-- **A plan that was made** was made by the steps to it, after lines about the request. -/
theorem FetchArgs.plan_planned {env : Environment} {t : Talk} {plan : FetchPlan}
    (h : a.plan c env t = some plan) :
    ∃ s t₁, serviceOf c env a.fileKey [tokenHint] = .ok s ∧ t₁.exchange = t.exchange ∧
      PlannedFrom s a c t₁ plan := by
  rw [FetchArgs.plan] at h
  split at h
  · cases h
  · next s hservice =>
    rcases hrun : (tryPlan s a c).run t with ⟨e | found, t'⟩
    · rw [hrun] at h
      cases h
    · rw [hrun] at h
      obtain rfl : found = some plan := h
      rw [tryPlan, say_bind, say_bind, say_bind] at hrun
      obtain hplan | ⟨e, t₁, -, hfailed⟩ := ok_of_run_tryCatch hrun
      · rw [map_eq_pure_bind] at hplan
        obtain ⟨plan', t₁, hmade, hpure⟩ := ok_of_run_bind hplan
        obtain rfl := Option.some.inj (Except.ok.inj (Prod.mk.inj hpure).1)
        refine ⟨s, _, hservice, ?_, planFetch_ok hmade⟩
        rfl
      · exact (fetchFailed_ne_some hfailed).elim

/-- **A plan that was made stands on something that was fetched.** -/
theorem FetchArgs.plan_eq_some {env : Environment} {t : Talk} {plan : FetchPlan}
    (h : a.plan c env t = some plan) :
    ∃ s frame children, serviceOf c env a.fileKey [tokenHint] = .ok s ∧
      Fetched s a c t.exchange plan frame children := by
  obtain ⟨s, t₁, hservice, hexchange, hplanned⟩ := FetchArgs.plan_planned h
  obtain ⟨frame, children, hfetched⟩ := hplanned.fetched
  exact ⟨s, frame, children, hservice, hexchange ▸ hfetched⟩

/-- The conversions behind a plan: the main page and then the pages of the children. -/
def FetchPlan.converted (plan : FetchPlan) (frame : Node) (children : List (ChildPage × Node)) :
    List Converted :=
  ⟨plan.options, frame, plan.result⟩ :: children.map ChildPage.converted

/-- **The pages of a plan are converted one after the other**, and the stylesheet is that of the context in
the end. -/
theorem Fetched.convertedAll {x : Exchange} {plan : FetchPlan} {frame : Node}
    {children : List (ChildPage × Node)} (h : Fetched s a c x plan frame children) :
    ∃ after, ConvertedAll .fresh (plan.converted frame children) after ∧
      plan.styles = after.styles := by
  obtain ⟨-, -, hconvert, -, hchildren⟩ := h
  cases hchildren with
  | none _ => exact ⟨_, .cons hconvert .nil, rfl⟩
  | asked _ _ _ hread => exact ⟨_, .cons hconvert hread.convertedAll, rfl⟩

/-- The main page is no child. -/
theorem Fetched.isChild {x : Exchange} {plan : FetchPlan} {frame : Node}
    {children : List (ChildPage × Node)} (h : Fetched s a c x plan frame children) :
    plan.options.isChild = false := by
  obtain ⟨-, -, -, -, -⟩ := h
  rfl

end Plan

/-! ## The stylesheet and the pages -/

/-- **The files of the main page can be read** once a plan is written, since they are written last. -/
theorem writePlan_read {plan : FetchPlan} {s s' : Store} {paths : List String}
    (h : (writePlan plan).run s = (.ok paths, s')) :
    ∀ f ∈ Page.outputFiles plan.outputFolder plan.result plan.styles plan.options "index.html",
      s'.read f.path = .ok (Text.encodeUtf8 f.content) := by
  rw [writePlan] at h
  obtain ⟨children, s₁, -, h⟩ := ok_of_run_bind h
  obtain ⟨index, s₂, -, h⟩ := ok_of_run_bind h
  obtain ⟨main, s₃, hmain, hpure⟩ := ok_of_run_bind h
  obtain rfl := (Prod.mk.inj hpure).2
  exact Page.writeConversion_read hmain

/-- **One stylesheet for all pages of a fetch.** A fetch that succeeds has converted the frame and then its
children in order; all classes of all pages are different; and what is read of the stylesheet of the output
folder in the end is the text of a table that has the rules of the main page and then those of each child,
each under the class of its own element. -/
theorem fetch_shares_stylesheet (a : FetchArgs) (c : Config) (env : Environment) (w w' : World)
    (h : (fetchCommand a c env).run w = (.ok 0, w')) :
    ∃ s plan frame children shown, serviceOf c env a.fileKey [tokenHint] = .ok s ∧
      a.plan c env w.talk = some plan ∧ Fetched s a c w.talk.exchange plan frame children ∧
      SharedSheet (plan.converted frame children) shown plan.styles ∧
      w'.files.read ((Path.read plan.outputFolder).append "styles.css") =
        .ok (Text.encodeUtf8 (Page.stylesheet plan.styles plan.options.bootstrapVersion)) := by
  cases fetchCommand_twoPhase h with
  | unsettled _ _ hne => exact absurd rfl hne
  | stopped _ _ hend =>
    obtain hend | ⟨-, hfalse⟩ := hend
    · cases hend
    · exact hfalse.elim
  | written hsettled hrun _ =>
    obtain ⟨plan, hplan, rfl⟩ := Option.map_eq_some_iff.mp hsettled
    obtain ⟨s, frame, children, hservice, hfetched⟩ := FetchArgs.plan_eq_some hplan
    obtain ⟨after, hall, hstyles⟩ := hfetched.convertedAll
    obtain ⟨shown, hshared⟩ := hall.sharedSheet
    rw [← hstyles] at hshared
    have hsheet := writePlan_read hrun _
      (Page.stylesheet_mem_outputFiles plan.outputFolder plan.result plan.styles hfetched.isChild _)
    exact ⟨s, plan, frame, children, shown, hservice, hplan, hfetched, hshared, hsheet⟩

/-- The world before a fetch of a frame with a heading and a card. -/
def cardWorld : World :=
  landingWorld (nodeData "1:3" "Card" "COMPONENT" [("width", .number (.int 200))])

theorem landing_shares_stylesheet :
    ∃ w', (fetchCommand landingArgs tokenConfig []).run cardWorld = (.ok 0, w') ∧
      ∃ s plan frame children shown,
        plan.styles.names = ["text-2", "component-3", "text-4", "component-5"] ∧
        serviceOf tokenConfig [] landingArgs.fileKey [tokenHint] = .ok s ∧
        Fetched s landingArgs tokenConfig cardWorld.talk.exchange plan frame children ∧
        SharedSheet (plan.converted frame children) shown plan.styles ∧
        w'.files.read ((Path.read plan.outputFolder).append "styles.css") =
          .ok (Text.encodeUtf8 (Page.stylesheet plan.styles plan.options.bootstrapVersion)) := by
  have hfetch : ((fetchCommand landingArgs tokenConfig []).run cardWorld).1.toOption = some 0 := by
    decide +kernel
  have hnames : (landingArgs.plan tokenConfig [] cardWorld.talk).map
      (fun plan => plan.styles.names) = some ["text-2", "component-3", "text-4", "component-5"] := by
    decide +kernel
  have hrun := run_of_toOption hfetch
  obtain ⟨s, plan, frame, children, shown, hservice, hplan, hfetched, hshared, hsheet⟩ :=
    fetch_shares_stylesheet _ _ _ _ _ hrun
  rw [hplan] at hnames
  exact ⟨_, hrun, s, plan, frame, children, shown, Option.some.inj hnames, hservice, hfetched, hshared,
    hsheet⟩

end DesignMarkup
