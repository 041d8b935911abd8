import DesignMarkup.Proofs.Command.Placement
import DesignMarkup.Proofs.Page.LinkIndex
import DesignMarkup.Proofs.Page.Reference

/-!
# `Proofs.Command.Links` — where the links of the index lead

The link index of a fetch shows one link for each page of a child, and what it gives as the reference is the file
name of that page. A file name is made from the name of a child, which may hold characters that end the path of a
reference or stand for a byte in it. So whether a link leads to its page depends on these characters alone: it does
if the file name is literal, and for a name without slashes only then.

## Contents

* `FetchPlan.IndexShown`, `indexShown`: what the link index shows;
* `FetchPlan.LinkLeads`, `FetchPlan.Linked`, `linked`: **the link to the page of a child**;
* `fetch_index_leads`: **where the links of a fetch lead**.
-/

namespace DesignMarkup

namespace FetchPlan

/-! ## What the link index shows -/

/-- The body of the link index. -/
def indexBody (p : FetchPlan) : String :=
  Page.bodyPart (Page.indexBody p.frame (p.children.map ChildPage.link))

/-- **The link index shows the links** to the pages of the children, one for each and in order: its body, which is
found if the release of the style framework is written without tags, is read as these links. -/
structure IndexShown (p : FetchPlan) : Prop where
  within : ∃ head foot, p.indexFile.content = head ++ "<body>" ++ p.indexBody ++ foot
  found : '<' ∉ p.options.bootstrapVersion.toList → Page.body? p.indexFile.content = some p.indexBody
  shown : ∃ ps, Markup.read p.indexBody = some ps ∧
    Page.ShowsIndex p.frame.characters (p.children.map ChildPage.link) ps

theorem indexShown (p : FetchPlan) : p.IndexShown where
  within := by
    refine ⟨Page.linesToBody ("Frame: " ++ p.frame.shown) true p.options.bootstrapVersion,
      String.ofList Page.scriptsMark ++ Page.linesAfterBody p.options.bootstrapVersion, ?_⟩
    rw [← String.append_assoc]
    exact Page.document_eq _ _ true _
  found := fun h => Page.body_linkIndex p.frame _ h
  shown := Page.read_index p.frame _

/-! ## The link to the page of a child -/

/-- **The link to the page of a child leads to it**: the reference that the link index shows for the child, followed
from the link index, leads to the place of the page. -/
def LinkLeads (p : FetchPlan) (s : Store) (child : ChildPage) : Prop :=
  s.follow p.indexFile.path child.fileName = some (s.placeOf (p.childFile child).path)

/-- **What is known of the link to the page of a child**: the page was written and stands at its place, and the link
leads there if the file name is literal. If the name of the child has no slash, it leads there only then. -/
structure Linked (p : FetchPlan) (s s' : Store) (child : ChildPage) : Prop where
  written : p.childFile child ∈ p.files
  stands : ∃ content, s'.fileAt (s.placeOf (p.childFile child).path) = some content
  leads : Page.IsLiteral child.fileName → p.LinkLeads s child
  only : '/' ∉ child.child.name.toList → (p.LinkLeads s child ↔ Page.IsLiteral child.fileName)
  literal : '?' ∉ child.child.name.toList → '#' ∉ child.child.name.toList → '%' ∉ child.child.name.toList →
    Page.IsLiteral child.fileName

variable {p : FetchPlan} {child : ChildPage}

theorem childFile_mem (hchild : child ∈ p.children) : p.childFile child ∈ p.files :=
  List.mem_append_left _ (List.mem_append_left _ (List.mem_map_of_mem hchild))

theorem indexFile_mem (h : p.children ≠ []) : p.indexFile ∈ p.files := by
  have hsome : p.children.isEmpty = false := by simpa using h
  refine List.mem_append_left _ (List.mem_append_right _ ?_)
  rw [hsome]
  exact List.mem_singleton_self _

/-- **The links to the pages of children** that were written. -/
theorem linked (hnamed : p.Named) (hchild : child ∈ p.children) {s s' : Store}
    (hwrote : Page.WroteAll s p.files s')
    (hname : ∃ taken, child.fileName = Page.unusedFileName child.child.name taken) : p.Linked s s' child := by
  have hindex : Path.IsPlain "index.html" := Page.index_names_plain _ (by decide)
  obtain ⟨taken, htaken⟩ := hname
  constructor
  case written => exact childFile_mem hchild
  case stands =>
    rw [hwrote.fileAt]
    exact Page.lastAt_of_mem (childFile_mem hchild)
  case leads =>
    intro hliteral
    have hne : child.fileName ≠ "" := by
      intro he
      have hlast := Page.getLast?_unusedFileName child.child.name taken
      rw [← htaken, he] at hlast
      cases hlast
    exact Store.follow_of_literal hliteral hne hindex s _
  case only =>
    intro hslash
    exact Store.follow_iff (hnamed.plain child hchild hslash) hindex (hnamed.index child hchild) s _
  case literal =>
    intro hquery hfragment hpercent
    rw [htaken]
    exact Page.isLiteral_unusedFileName hquery hfragment hpercent taken

end FetchPlan

/-- **Where the links of a fetch lead.** A fetch that succeeds with pages of children has written a link index, which
shows one link for each of them. A link leads to the page of its child if the file name is literal, as it is for each
name without a question mark, a hash and a percent sign; and for a name without slashes it leads there only then. -/
theorem fetch_index_leads (a : FetchArgs) (c : Config) (env : Environment) (w w' : World)
    (h : (fetchCommand a c env).run w = (.ok 0, w')) :
    ∃ s plan frame children, serviceOf c env a.fileKey [tokenHint] = .ok s ∧
      a.plan c env w.talk = some plan ∧ Fetched s a c w.talk.exchange plan frame children ∧
      (∃ paths, (Page.writeAll plan.files).run w.files = (.ok paths, w'.files)) ∧
      (plan.children ≠ [] → plan.indexFile ∈ plan.files ∧ plan.IndexShown ∧
        ∀ child ∈ plan.children, plan.Linked w.files w'.files child) := by
  obtain ⟨s, plan, frame, children, hservice, hplan, hfetched, paths, hrun⟩ := fetch_ok h
  refine ⟨s, plan, frame, children, hservice, hplan, hfetched, ⟨paths, hrun⟩, fun hsome => ?_⟩
  refine ⟨FetchPlan.indexFile_mem hsome, plan.indexShown, fun child hchild => ?_⟩
  exact FetchPlan.linked hfetched.named hchild (Page.writeAll_ok hrun) (hfetched.fileName_eq child hchild)

theorem headline_link_leads :
    ∃ w', (fetchCommand landingArgs tokenConfig []).run (framingWorld "Head Line") = (.ok 0, w') ∧
      ∃ plan, landingArgs.plan tokenConfig [] (framingWorld "Head Line").talk = some plan ∧
        plan.children.length = 1 ∧ plan.IndexShown ∧
        ∀ child ∈ plan.children, plan.LinkLeads (framingWorld "Head Line").files child := by
  have hfetch : ((fetchCommand landingArgs tokenConfig []).run
      (framingWorld "Head Line")).1.toOption = some 0 := by
    decide +kernel
  have hnames : (landingArgs.plan tokenConfig [] (framingWorld "Head Line").talk).map (fun plan =>
      plan.children.map fun child => child.child.name) = some ["Head Line"] := by
    decide +kernel
  have hrun := run_of_toOption hfetch
  obtain ⟨s, plan, frame, children, -, hplan, -, -, hlinks⟩ := fetch_index_leads _ _ _ _ _ hrun
  rw [hplan] at hnames
  have hnames : (plan.children.map fun child => child.child.name) = ["Head Line"] := Option.some.inj hnames
  have hlength : plan.children.length = 1 := by
    rw [← List.length_map (f := fun child : ChildPage => child.child.name), hnames]
    rfl
  obtain ⟨-, hshown, hlinked⟩ := hlinks (List.ne_nil_of_length_pos (by omega))
  refine ⟨_, hrun, plan, hplan, hlength, hshown, fun child hchild => ?_⟩
  have hname : child.child.name = "Head Line" := by
    apply List.mem_singleton.mp
    rw [← hnames]
    exact List.mem_map_of_mem hchild
  have hlink := hlinked child hchild
  apply hlink.leads
  apply hlink.literal
  all_goals
    rw [hname]
    decide

/-- **A link that leads nowhere.** The page of a child with the name `Card #2` is `card-#2.html`, and the reference of
that name ends before the hash: it leads to `card-`, where nothing was written. -/
theorem cardHash_link_broken :
    ∃ w' plan, (fetchCommand landingArgs tokenConfig []).run (framingWorld "Card #2") = (.ok 0, w') ∧
      landingArgs.plan tokenConfig [] (framingWorld "Card #2").talk = some plan ∧
      ∃ child ∈ plan.children, ¬plan.LinkLeads (framingWorld "Card #2").files child ∧
        ∃ place, (framingWorld "Card #2").files.follow plan.indexFile.path child.fileName = some place ∧
          w'.files.find place = none := by
  have hfetch : ((fetchCommand landingArgs tokenConfig []).run
      (framingWorld "Card #2")).1.toOption = some 0 := by
    decide +kernel
  have hnames : (landingArgs.plan tokenConfig [] (framingWorld "Card #2").talk).map (fun plan =>
      plan.children.map ChildPage.fileName) = some ["card-#2.html"] := by
    decide +kernel
  have hbroken : (landingArgs.plan tokenConfig [] (framingWorld "Card #2").talk).map (fun plan =>
      let place := (framingWorld "Card #2").files.placeOf (plan.indexFile.path.parent.append "card-")
      decide ((∀ child ∈ plan.children, (framingWorld "Card #2").files.placeOf (plan.childFile child).path ≠ place) ∧
        ((fetchCommand landingArgs tokenConfig []).run (framingWorld "Card #2")).2.files.find place = none)) =
        some true := by
    decide +kernel
  have hpath : Page.referredPath? "card-#2.html" = some "card-" :=
    Page.referredPath?_eq (by decide) (Page.isLiteral_of_not_mem (by decide) (by decide) (by decide))
  obtain ⟨_, plan, _, _, _, hplan, _⟩ := fetch_ok (run_of_toOption hfetch)
  rw [hplan] at hnames hbroken
  obtain ⟨hplaces, hnone⟩ := of_decide_eq_true (Option.some.inj hbroken)
  have hnames : plan.children.map ChildPage.fileName = ["card-#2.html"] := Option.some.inj hnames
  have hmem : "card-#2.html" ∈ plan.children.map ChildPage.fileName := by
    rw [hnames]
    exact List.mem_singleton_self _
  obtain ⟨child, hchild, hname⟩ := List.mem_map.mp hmem
  have hfollow : (framingWorld "Card #2").files.follow plan.indexFile.path child.fileName =
      some ((framingWorld "Card #2").files.placeOf (plan.indexFile.path.parent.append "card-")) := by
    rw [hname, Store.follow, hpath]
    rfl
  refine ⟨_, plan, run_of_toOption hfetch, hplan, child, hchild, fun hleads => ?_, _, hfollow, hnone⟩
  rw [FetchPlan.LinkLeads, hfollow] at hleads
  exact hplaces child hchild (Option.some.inj hleads).symm

end DesignMarkup
