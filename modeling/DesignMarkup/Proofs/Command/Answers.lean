import DesignMarkup.Command.Pages
import DesignMarkup.Proofs.Command.Fetch
import DesignMarkup.Proofs.Command.Talk
import DesignMarkup.Proofs.Conversion.Failure
import DesignMarkup.Proofs.Lookup

/-!
# `Proofs.Command.Answers` — bad answers that are told of

A command that asks the service ends with code 0 or 1, whatever the names and the status of the answers, as
long as the answers keep to a form: what comes with status 200 is JSON; a file has the form that the searches
expect; and the numbers of the designs can be rounded. Everything else that may be wrong, a refusal, a name
that is not there, a node that is none or has fields of the wrong kind, is told of in the last line that is
printed. Answers of another form end the command with a failure that nobody tells of.

## Contents

* `IsRoundable`, `IsNodeAnswer`, `IsChildrenAnswer`: answers about nodes;
* `fetchFrame_ends`, `convertChildren_ends`, `planFetch_ends`: the steps of a fetch;
* `refusedLine_eq`, `fetchFailed_of_isTold`: the line about a failure;
* `fetchCommand_reported`, `pagesCommand_reported_iff`: the two commands;
* `bad_answers_told`: **commands that tell of bad answers**.
-/

namespace DesignMarkup

open Json (fieldOrNull)
open Lookup (IsFile IsObject IsPage IsSection)

/-! ## Answers about nodes -/

/-- The numbers of a node can be rounded: those of every layer that may be shown and is no text. -/
def Node.Roundable (n : Node) : Prop :=
  ∀ o, ∀ l ∈ n.shown o, l.kind ≠ .text → l.Bounded

/-- **Data of which the numbers can be rounded**, if they are the data of a node. -/
def IsRoundable (v : Json) : Prop :=
  ∀ n, Node.read v = .ok n → n.Roundable

/-- An answer about one node. It may be about none, or the node no node at all. -/
def IsNodeAnswer (v : Json) : Prop :=
  ∀ main ∈ Lookup.findMainNode v, IsRoundable main

/-- Entries about nodes by their ids. -/
def AreNodeEntries (nodes : List (String × Json)) : Prop :=
  ∀ id, IsSection (fun entry => IsRoundable (fieldOrNull entry "document")) (fieldOrNull nodes id)

/-- An answer about several nodes. It may have no entries, and the entries no node. -/
inductive IsChildrenAnswer : Json → Prop where
  | mk {fields : List (String × Json)} :
    IsSection AreNodeEntries (fieldOrNull fields "nodes") → IsChildrenAnswer (.object fields)

/-- What counts as nothing is no design. -/
theorem isRoundable_null : IsRoundable .null :=
  fun _ h => by cases h

theorem areNodeEntries_nil : AreNodeEntries [] :=
  fun _ => .absent rfl

theorem childData_of_areNodeEntries {nodes : List (String × Json)} (h : AreNodeEntries nodes)
    (id : String) : ∃ raw, childData nodes id = .ok raw ∧ IsRoundable raw := by
  obtain ⟨entry, hentry, hround⟩ := (Lookup.fieldsOrNone_iff isRoundable_null _).mpr (h id)
  exact ⟨fieldOrNull entry "document", bind_eq_ok.mpr ⟨entry, hentry, rfl⟩, hround⟩

/-! ## The steps of a fetch -/

section Steps

variable {c : Config} {t : Talk}

/-- **The command can be run with this configuration**: lines can be written at the depth of the root, and the
output folder is a text. -/
structure FetchArgs.Feasible (a : FetchArgs) (c : Config) : Prop where
  depth : (c.options {}).rootDepth < Html.hugeDepth
  folder : Succeeds (pathText (c.outputFolder a.output))

/-- A depth from a configuration is not negative. -/
theorem rootDepth_nonneg (c : Config) : 0 ≤ (c.options {}).rootDepth := by
  simp only [Config.options, Options.override]
  rw [Option.getD_none]
  cases hdepth : Config.depth? (fieldOrNull (c.section? "conversion") "rootDepth") with
  | none => decide
  | some n =>
    unfold Config.depth? at hdepth
    split at hdepth
    · next m _ =>
      split at hdepth
      · next hnonneg =>
        obtain rfl := Option.some.inj hdepth
        exact hnonneg
      · cases hdepth
    · cases hdepth

/-- The depth of a root is that of the configuration. -/
theorem rootDepth_options (c : Config) (title : Option String) (isChild : Option Bool) :
    (c.options { title, isChild }).rootDepth = (c.options {}).rootDepth :=
  rfl

/-- **Converting what can be rounded** succeeds, in whatever context. -/
theorem convertIn_ends {told : Failure → Prop} {n : Node} {context : Context} {o : Options}
    (hdepth : o.rootDepth = (c.options {}).rootDepth)
    (hhuge : (c.options {}).rootDepth < Html.hugeDepth) (hround : n.Roundable) :
    Ends told (convertIn context o n) t fun _ t' => t'.exchange = t.exchange := by
  obtain ⟨result, after, hrun⟩ : SucceedsFrom (convert o (some n)) context := by
    have hnonneg := rootDepth_nonneg c
    rw [← hdepth] at hnonneg hhuge
    refine (convert_succeeds_iff o n context).mpr ⟨⟨?_, hhuge⟩, hround o⟩
    unfold Html.minDepth
    omega
  simp only [convertIn, hrun]
  exact (ends_orFail (Q := fun _ t' => t'.exchange = t.exchange) (.inl ⟨result, rfl, rfl⟩)).bind
    fun _ _ h => ends_pure h

/-- Faulty data are told of. -/
theorem orFail_data_ends {α : Type} {r : Except DataError α} {P : α → Prop} (h : ∀ a, r = .ok a → P a) :
    Ends IsTold (orFail .data r) t fun a t' => P a ∧ t' = t := by
  refine ends_orFail ?_
  cases r with
  | error e => exact .inr ⟨e, rfl, trivial⟩
  | ok a => exact .inl ⟨a, rfl, h a rfl, rfl⟩

/-- A name that is not there is told of. -/
theorem orFail_ofLookup_ends {α : Type} {r : Except LookupError α} {P : α → Prop}
    (h : (∃ a, r = .ok a ∧ P a) ∨ ∃ e, r = .error (.notFound e)) :
    Ends IsTold (orFail .ofLookup r) t fun a t' => P a ∧ t' = t := by
  obtain ⟨a, ha, hP⟩ | ⟨e, he⟩ := h
  · exact ends_orFail (.inl ⟨a, ha, hP, rfl⟩)
  · exact ends_orFail (.inr ⟨.notFound e, he, trivial⟩)

/-- **Converting the children** ends well if what is said about them can be rounded. -/
theorem convertChildren_ends (hhuge : (c.options {}).rootDepth < Html.hugeDepth)
    {nodes : List (String × Json)} (hnodes : AreNodeEntries nodes) (total : Nat) (children : List Node) :
    ∀ (i : Nat) (used : List String) (context : Context) (t : Talk),
      Ends IsTold (convertChildren c nodes total i used context children) t fun _ _ => True := by
  induction children with
  | nil =>
    intro i used context t
    rw [convertChildren]
    exact ends_pure trivial
  | cons child rest ih =>
    intro i used context t
    rw [convertChildren]
    refine (orFail_ofLookup_ends (.inl (childData_of_areNodeEntries hnodes child.layer.id))).bind
      fun raw t₁ hraw => ?_
    split
    · refine (ends_say _).bind fun _ t₂ _ => (orFail_data_ends hraw.1).bind fun n t₃ hn => ?_
      refine (convertIn_ends (rootDepth_options c _ _) hhuge hn.1).bind fun converted t₄ _ => ?_
      exact (ih _ _ _ _).bind fun converted t₅ _ => ends_pure trivial
    · exact (ends_say _).bind fun _ t₂ _ => ih _ _ _ _

/-- The node that an answer is about. -/
theorem nodeOf_of_isNodeAnswer {v : Json} (h : IsNodeAnswer v) :
    ∀ n, nodeOf v = .ok n → n.Roundable := by
  intro n hn
  unfold nodeOf at hn
  split at hn
  · next main hmain =>
    split at hn
    · exact h main hmain n hn
    · cases hn
  · cases hn

variable {s : Service} {a : FetchArgs} {r₁ r₂ r₃ : Response} {rest : List Response}

/-- **Fetching a frame** ends well if both answers fit. -/
theorem fetchFrame_ends (hpending : t.exchange.pending = r₁ :: r₂ :: rest)
    (hfile : r₁.Fits (IsFile IsPage)) (hnode : r₂.Fits IsNodeAnswer) :
    Ends IsTold (fetchFrame s a) t fun n t' => n.Roundable ∧ t'.exchange.pending = rest := by
  rw [fetchFrame, Client.getFile]
  refine (ends_ask (fun _ _ => trivial) hpending hfile _ _ _).bind fun file t₁ hanswer => ?_
  obtain ⟨hform, h₁⟩ := hanswer
  refine (orFail_ofLookup_ends (Lookup.findPage_of_isFile a.page hform)).bind fun page t₂ hfound => ?_
  obtain ⟨hpage, h₂⟩ := hfound
  refine (ends_say _).bind fun _ t₃ hsaid => ?_
  obtain ⟨h₃, -⟩ := hsaid
  refine (orFail_ofLookup_ends (Lookup.findFrame_of_isPage a.frame hpage)).bind
    fun frame t₄ hfound => ?_
  obtain ⟨⟨id, hid⟩, h₄⟩ := hfound
  refine (ends_say _).bind fun _ t₅ hsaid => ?_
  obtain ⟨h₅, -⟩ := hsaid
  -- the id is a text, so it can be asked for
  have hids := getNodes_eq s.client s.fileKey [id]
  rw [List.map_singleton] at hids
  rw [hid, hids]
  have hrest : t₅.exchange.pending = r₂ :: rest := by
    rw [h₅, h₄, h₃, h₂, h₁]
  refine (ends_ask (fun _ _ => trivial) hrest hnode _ _ _).bind fun data t₆ hdata => ?_
  obtain ⟨hanswer, h₆⟩ := hdata
  refine (orFail_data_ends (nodeOf_of_isNodeAnswer hanswer)).mono fun n t₇ hn => ⟨hn.1, ?_⟩
  rw [hn.2, h₆]

/-- **Fetching the children** ends well if the answer fits. -/
theorem fetchChildren_ends (hhuge : (c.options {}).rootDepth < Html.hugeDepth)
    (hpending : t.exchange.pending = r₃ :: rest) (hchildren : r₃.Fits IsChildrenAnswer)
    (context : Context) (children : List Node) :
    Ends IsTold (fetchChildren s a c context children) t fun _ _ => True := by
  rw [fetchChildren]
  split
  · exact (ends_say _).bind fun _ _ _ => ends_pure trivial
  · split
    · exact ends_pure trivial
    · refine (ends_say _).bind fun _ t₁ hsaid => ?_
      rw [← hsaid.1] at hpending
      have hids : children.map (fun n => Json.string n.layer.id) =
          (children.map (·.layer.id)).map Json.string := by
        rw [List.map_map]
        rfl
      dsimp only
      rw [hids, getNodes_eq]
      refine (ends_ask (fun _ _ => trivial) hpending hchildren _ _ _).bind
        fun detail t₂ hdetail => ?_
      obtain ⟨⟨hsection⟩, -⟩ := hdetail
      refine (orFail_ofLookup_ends (P := fun fields => IsSection AreNodeEntries (fieldOrNull fields "nodes"))
        (.inl ⟨_, rfl, hsection⟩)).bind fun fields t₃ hfields => ?_
      refine (orFail_ofLookup_ends (.inl ((Lookup.fieldsOrNone_iff areNodeEntries_nil _).mpr
        hfields.1))).bind fun nodes t₄ hnodes => ?_
      exact convertChildren_ends hhuge hnodes.1 _ _ _ _ _ _

/-- **All that is asked and converted** ends well if the answers fit. -/
theorem planFetch_ends (hfeasible : a.Feasible c) (hpending : t.exchange.pending = r₁ :: r₂ :: r₃ :: rest)
    (hfile : r₁.Fits (IsFile IsPage)) (hnode : r₂.Fits IsNodeAnswer)
    (hchildren : r₃.Fits IsChildrenAnswer) :
    Ends IsTold (planFetch s a c) t fun _ _ => True := by
  rw [planFetch]
  refine (fetchFrame_ends hpending hfile hnode).bind fun root t₁ hroot => ?_
  obtain ⟨hround, h₁⟩ := hroot
  refine (convertIn_ends (rootDepth_options c _ none) hfeasible.depth hround).bind
    fun converted t₂ h₂ => ?_
  obtain ⟨folder, hfolder⟩ := hfeasible.folder
  refine (ends_orFail (Q := fun _ t' => t' = t₂) (.inl ⟨folder, hfolder, rfl⟩)).bind
    fun folder' t₃ h₃ => ?_
  have hrest : t₃.exchange.pending = r₃ :: rest := by
    rw [h₃, h₂, h₁]
  exact (fetchChildren_ends hfeasible.depth hrest hchildren converted.2 root.children).bind
    fun children t₄ _ => ends_pure trivial

end Steps

/-! ## Lines about failures -/

/-- The line about a refused request begins like every line about a failure. -/
theorem refusedLine_eq (message : String) (status fileKey : Json) :
    ∃ rest, refusedLine message status fileKey = "❌ " ++ rest := by
  unfold refusedLine
  split
  · exact ⟨"Figma API 403：API key 無效或已過期，或檔案未分享給此帳號。", rfl⟩
  · split
    · refine ⟨"Figma API 404：找不到檔案 '" ++ fileKey.text ++ "'，請確認 file key 是否正確。", ?_⟩
      rw [← String.append_assoc, ← String.append_assoc]
      rfl
    · refine ⟨"Figma API 錯誤（" ++ status.text ++ "）：" ++ message, ?_⟩
      rw [← String.append_assoc, ← String.append_assoc, ← String.append_assoc]
      rfl

/-- A fetch tells of refusals and of faulty data. -/
theorem fetchFailed_of_isTold (fileKey : Json) (e : Failure) (h : IsTold e) :
    ∃ message, fetchFailed fileKey e = say ("❌ " ++ message) >>= fun _ => pure none := by
  unfold fetchFailed
  split
  · next message status =>
    obtain ⟨rest, hrest⟩ := refusedLine_eq message status fileKey
    exact ⟨rest, by rw [hrest]⟩
  · next e => exact ⟨e.message, rfl⟩
  · next hapi hdata =>
    unfold IsTold at h
    split at h
    · exact absurd rfl (hapi _ _)
    · exact absurd rfl (hdata _)
    · exact h.elim

/-! ## Commands that tell of bad answers -/

/-- **Answers to a fetch that fit**: about the file, about the frame, and about its children. -/
inductive FetchAnswers : List Response → Prop where
  | mk {file node children : Response} {rest : List Response} :
    file.Fits (IsFile IsPage) → node.Fits IsNodeAnswer → children.Fits IsChildrenAnswer →
    FetchAnswers (file :: node :: children :: rest)

/-- **The command has told of everything**: it ends with code 0, or with code 1 and a line about a failure. -/
def Reported (w : World) (r : Except Failure Nat) (w' : World) : Prop :=
  r = .ok 0 ∨ r = .ok 1 ∧ w.talk.TellsLast w'.talk

section Reports

variable {s : Service} {c : Config} {env : Environment} {w w' : World} {r : Except Failure Nat}
  {r₁ r₂ r₃ : Response} {rest : List Response}

/-- A plan is made, or a line tells why there is none. -/
theorem tryPlan_ends {a : FetchArgs} {t : Talk} (hfeasible : a.Feasible c)
    (hpending : t.exchange.pending = r₁ :: r₂ :: r₃ :: rest) (hfile : r₁.Fits (IsFile IsPage))
    (hnode : r₂.Fits IsNodeAnswer) (hchildren : r₃.Fits IsChildrenAnswer) :
    Ends (fun _ => False) (tryPlan s a c) t fun found t' => found = none → t.TellsLast t' := by
  rw [tryPlan]
  refine (ends_say _).bind fun _ t₁ hsaid₁ => ?_
  refine (ends_say _).bind fun _ t₂ hsaid₂ => ?_
  refine (ends_say _).bind fun _ t₃ hsaid₃ => ?_
  obtain ⟨h₁, hextends₁⟩ := hsaid₁
  obtain ⟨h₂, hextends₂⟩ := hsaid₂
  obtain ⟨h₃, hextends₃⟩ := hsaid₃
  have hrest : t₃.exchange.pending = r₁ :: r₂ :: r₃ :: rest := by
    rw [h₃, h₂, h₁, hpending]
  refine ((planFetch_ends hfeasible hrest hfile hnode hchildren).tellingFailures
    (fetchFailed_of_isTold s.fileKey)).mono fun found t₄ h hnone => ?_
  obtain ⟨plan, hsome, -⟩ | ⟨-, htells⟩ := h
  · cases hnone.symm.trans hsome
  · exact ((hextends₁.trans hextends₂).trans hextends₃).tellsLast htells

/-- **A fetch tells of everything** if the answers fit, and no write fails. It ends with code 0 exactly if a
plan was made. -/
theorem fetchCommand_reported {a : FetchArgs} (hservice : serviceOf c env a.fileKey [tokenHint] = .ok s)
    (hpending : w.talk.exchange.pending = r₁ :: r₂ :: r₃ :: rest) (hfeasible : a.Feasible c)
    (hwrite : ∀ plan, a.plan c env w.talk = some plan → SucceedsFrom (writePlan plan) w.files)
    (hfile : r₁.Fits (IsFile IsPage)) (hnode : r₂.Fits IsNodeAnswer)
    (hchildren : r₃.Fits IsChildrenAnswer) (h : (fetchCommand a c env).run w = (r, w')) :
    Reported w r w' ∧ (r = .ok 0 ↔ ∃ plan, a.plan c env w.talk = some plan) := by
  rw [FetchArgs.plan, hservice] at hwrite ⊢
  rw [fetchCommand, hservice] at h
  have htry := run_talking w (tryPlan s a c)
  cases tryPlan_ends (s := s) hfeasible hpending hfile hnode hchildren with
  | failed _ _ hfalse => exact hfalse.elim
  | @ok found t' hrun hextends htells =>
    rw [hrun] at htry
    replace h := (run_bind_ok htry).symm.trans h
    simp only [hrun] at hwrite ⊢
    cases found with
    | none =>
      obtain ⟨rfl, rfl⟩ := Prod.mk.inj h
      refine ⟨.inr ⟨rfl, htells rfl⟩, iff_of_false (fun h => ?_) ?_⟩
      · cases h
      · rintro ⟨plan, hplan⟩
        cases hplan
    | some plan =>
      obtain ⟨paths, s', hpaths⟩ := hwrite plan rfl
      have hfiling := run_filing ⟨w.files, t'⟩ (writePlan plan)
      rw [hpaths] at hfiling
      obtain ⟨_, t'', htalk⟩ := run_talking_ok ⟨s', t'⟩ (report_succeeds paths "   ✅ Conversion complete!")
      obtain ⟨rfl, -⟩ := Prod.mk.inj (((run_bind_ok hfiling).trans (run_bind_ok htalk)).symm.trans h)
      exact ⟨.inl rfl, iff_of_true rfl ⟨plan, rfl⟩⟩

/-- Printing pages never fails. -/
theorem sayPages_ends {told : Failure → Prop} (pages : List Lookup.PageEntry) (t : Talk) :
    Ends told (sayPages pages) t fun _ _ => True := by
  induction pages generalizing t with
  | nil => exact ends_pure trivial
  | cons p rest ih => exact (ends_say _).bind fun _ t₁ _ => ih t₁

/-- A file is there, or a line tells why there is none. -/
theorem tryFile_ends {t : Talk} {form : Json → Prop} (hpending : t.exchange.pending = r₁ :: rest)
    (hfile : r₁.Fits form) :
    Ends (fun _ => False) (tryFile s) t fun found t' =>
      (∃ file, found = some file ∧ form file) ∨ found = none ∧ t.TellsLast t' := by
  have hrefusal (message : String) (status : Json) : IsRefusal (.api (.refused message status)) :=
    trivial
  have hask := ends_ask hrefusal hpending hfile s.client (Client.fileUrl s.fileKey) []
  refine (hask.tellingFailures fun e he => ?_).mono fun found t' h => ?_
  · split
    · next message status =>
      obtain ⟨line, hline⟩ := refusedLine_eq message status s.fileKey
      exact ⟨line, by rw [hline]⟩
    · next hapi =>
      unfold IsRefusal at he
      split at he
      · exact absurd rfl (hapi _ _)
      · exact he.elim
  · obtain ⟨file, hsome, hform, -⟩ | hnone := h
    · exact .inl ⟨file, hsome, hform⟩
    · exact .inr hnone

theorem listFile_ends {t : Talk} (hpending : t.exchange.pending = r₁ :: rest)
    (hfile : r₁.Fits (IsFile IsObject)) :
    Ends (fun _ => False) (listFile s) t fun code t' => code = 0 ∨ code = 1 ∧ t.TellsLast t' := by
  rw [listFile]
  refine (ends_say _).bind fun _ t₁ hsaid => ?_
  obtain ⟨h₁, hextends⟩ := hsaid
  rw [← h₁] at hpending
  refine (tryFile_ends hpending hfile).bind fun found t₂ h => ?_
  obtain ⟨file, rfl, hform⟩ | ⟨rfl, htells⟩ := h
  · obtain ⟨pages, hpages⟩ := (Lookup.listPages_succeeds_iff file).mpr hform
    refine (ends_say _).bind fun _ t₃ _ => ?_
    refine (ends_orFail (Q := fun _ _ => True) (.inl ⟨pages, hpages, trivial⟩)).bind fun entries t₄ _ => ?_
    have hrest (t₅ : Talk) : Ends (fun _ => False) (sayPages entries >>= fun _ => pure 0) t₅
        fun code t' => code = 0 ∨ code = 1 ∧ t.TellsLast t' :=
      (sayPages_ends entries t₅).bind fun _ _ _ => ends_pure (.inl rfl)
    dsimp only
    split
    · exact (ends_say _).bind fun _ t₅ _ => hrest t₅
    · exact hrest t₄
  · exact ends_pure (.inr ⟨rfl, hextends.tellsLast htells⟩)

/-- Only an answer that fits leads to a list, or to a line about a refusal. -/
theorem fits_of_listFile_ok {t t' : Talk} {code : Nat} (hpending : t.exchange.pending = r₁ :: rest)
    (h : (listFile s).run t = (.ok code, t')) : r₁.Fits (IsFile IsObject) := by
  rw [listFile, say_bind] at h
  obtain ⟨found, t₁, htry, h⟩ := ok_of_run_bind h
  have hask := run_ask_send (t := { t with printed := t.printed ++
    ("🔑 Testing Figma API access: " ++ s.fileKey.text ++ "\n") }) hpending s.client
    (Client.fileUrl s.fileKey) []
  refine (accept_iff _ r₁).mp ?_
  rw [tryFile] at htry
  obtain hfound | ⟨e, t₂, hfailed, hhandled⟩ := ok_of_run_tryCatch htry
  · rw [map_eq_pure_bind] at hfound
    obtain ⟨file, t₂, hfile, hpure⟩ := ok_of_run_bind hfound
    obtain rfl := Except.ok.inj (Prod.mk.inj hpure).1
    have haccept := mapError_eq_ok.mp (Prod.mk.inj (hask.symm.trans hfile)).1
    obtain ⟨_, t₃, -, h⟩ := ok_of_run_bind h
    obtain ⟨pages, t₄, hpages, -⟩ := ok_of_run_bind h
    exact .inl ⟨file, haccept, (Lookup.listPages_succeeds_iff file).mp ⟨pages, (orFail_ok hpages).1⟩⟩
  · rw [map_eq_pure_bind] at hfailed
    obtain hfailed | ⟨file, t₃, -, hpure⟩ := error_of_run_bind hfailed
    · have haccept := (Prod.mk.inj (hask.symm.trans hfailed)).1
      -- of all failures of a request, only a refusal is handled
      cases hanswer : Client.accept r₁ with
      | ok v =>
        rw [hanswer] at haccept
        cases haccept
      | error fault =>
        rw [hanswer] at haccept
        obtain rfl := Except.error.inj haccept
        cases fault with
        | refused message status => exact .inr ⟨message, status, rfl⟩
        | _ => cases (Prod.mk.inj hhandled).1
    · cases (Prod.mk.inj hpure).1

/-- **A list of pages** tells of everything exactly if the answer fits. -/
theorem pagesCommand_reported_iff {a : PagesArgs} (hservice : serviceOf c env a.fileKey [] = .ok s)
    (hpending : w.talk.exchange.pending = r₁ :: rest) (h : (pagesCommand a c env).run w = (r, w')) :
    Reported w r w' ↔ r₁.Fits (IsFile IsObject) := by
  rw [pagesCommand, hservice] at h
  obtain ⟨rfl, rfl⟩ := Prod.mk.inj ((run_talking w (listFile s)).symm.trans h)
  rcases hrun : (listFile s).run w.talk with ⟨r, t'⟩
  constructor
  · rintro (rfl | ⟨rfl, -⟩)
    · exact fits_of_listFile_ok hpending hrun
    · exact fits_of_listFile_ok hpending hrun
  · intro hfits
    cases listFile_ends (s := s) hpending hfits with
    | failed _ _ hfalse => exact hfalse.elim
    | @ok code t'' hrun' _ hcode =>
      obtain ⟨rfl, rfl⟩ := Prod.mk.inj (hrun.symm.trans hrun')
      obtain rfl | ⟨rfl, htells⟩ := hcode
      · exact .inl rfl
      · exact .inr ⟨rfl, htells⟩

end Reports

/-- **Bad answers are told of**, whatever the page and the frame are called, with a token and a file key given.
A list of pages ends with code 0, or with code 1 and a line about a failure, exactly if the answer fits. So
does a fetch if its three answers fit, the command can be run with the configuration and no write fails, and
then it ends with code 0 exactly if a plan was made. -/
theorem bad_answers_told (c : Config) (env : Environment) (s : Service) (w w' : World)
    (r : Except Failure Nat) :
    (∀ (a : PagesArgs) (file : Response) (rest : List Response),
      serviceOf c env a.fileKey [] = .ok s → w.talk.exchange.pending = file :: rest →
      (pagesCommand a c env).run w = (r, w') → (Reported w r w' ↔ file.Fits (IsFile IsObject))) ∧
    (∀ a : FetchArgs, serviceOf c env a.fileKey [tokenHint] = .ok s → a.Feasible c →
      FetchAnswers w.talk.exchange.pending →
      (∀ plan, a.plan c env w.talk = some plan → SucceedsFrom (writePlan plan) w.files) →
      (fetchCommand a c env).run w = (r, w') →
      Reported w r w' ∧ (r = .ok 0 ↔ ∃ plan, a.plan c env w.talk = some plan)) := by
  constructor
  · intro a file rest hservice hpending hrun
    exact pagesCommand_reported_iff hservice hpending hrun
  · intro a hservice hfeasible hanswers hwrite hrun
    generalize hpending : w.talk.exchange.pending = pending at hanswers
    obtain ⟨hfile, hnode, hchildren⟩ := hanswers
    exact fetchCommand_reported hservice hpending hfeasible hwrite hfile hnode hchildren hrun

/-! ### A fetch of which the answers fit -/

/-- A layer without paints, effects and distances. -/
def Layer.isBare (l : Layer) : Bool :=
  l.fills = [] ∧ l.strokes = [] ∧ l.effects = [] ∧ l.padding = ⟨none, none, none, none⟩ ∧
    l.itemSpacing = none

/-- A bare layer has nothing to round. -/
theorem Layer.bounded_of_isBare {l : Layer} (h : l.isBare = true) : l.Bounded := by
  obtain ⟨hfills, hstrokes, heffects, hpadding, hgap⟩ := of_decide_eq_true h
  refine ⟨⟨?_, ?_, ?_⟩, ⟨?_, ?_, ?_, ?_, ?_⟩⟩
  · intro p hp
    rw [hfills] at hp
    cases hp
  · intro p hp
    rw [hstrokes] at hp
    cases hp
  · intro e he
    rw [heffects] at he
    exact absurd he List.not_mem_nil
  · rw [hpadding]
    exact Layout.measureBounded_none
  · rw [hpadding]
    exact Layout.measureBounded_none
  · rw [hpadding]
    exact Layout.measureBounded_none
  · rw [hpadding]
    exact Layout.measureBounded_none
  · rw [hgap]
    exact Layout.measureBounded_none

theorem isRoundable_of_isBare {v : Json}
    (h : (Node.read v).toOption.all (fun n => n.walk.all Layer.isBare) = true) : IsRoundable v := by
  intro n hn o l hl _
  rw [hn] at h
  exact Layer.bounded_of_isBare (List.all_eq_true.mp h l (n.shown_subset_walk o hl))

theorem landingFrame_isRoundable : IsRoundable landingFrame :=
  isRoundable_of_isBare (by decide +kernel)

/-- The heading of the frame. -/
def landingTitle : Json :=
  nodeData "1:2" "Title" "TEXT" [("style", .object [("fontSize", .number (.int 32))])]

theorem landingTitle_isRoundable : IsRoundable landingTitle :=
  isRoundable_of_isBare (by decide +kernel)

theorem landingTitle_isNode : Lookup.IsNode landingTitle :=
  .leaf ⟨"1:2", rfl⟩ rfl

theorem landingFrame_isNode : Lookup.IsNode landingFrame := by
  refine .parent ⟨"1:1", rfl⟩ rfl fun v hv => ?_
  obtain rfl | hv := List.mem_cons.mp hv
  · exact landingTitle_isNode
  · obtain rfl := List.mem_singleton.mp hv
    exact .leaf ⟨"1:3", rfl⟩ rfl

/-- The answers about the frame fit if the numbers of the card can be rounded. -/
theorem landingResponses_fit {card : Json} (hcard : IsRoundable card) :
    FetchAnswers (landingResponses card) := by
  refine .mk (fun _ => ⟨_, rfl, .inr (.mk (.object ⟨_, rfl, fun v hv => ?_⟩))⟩)
    (fun _ => ⟨_, rfl, .inr fun main hmain => ?_⟩)
    (fun _ => ⟨_, rfl, .inr (.mk (.object fun id => ?_))⟩)
  · obtain rfl := List.mem_singleton.mp hv
    refine .parent rfl fun v hv => ?_
    obtain rfl := List.mem_singleton.mp hv
    exact landingFrame_isNode
  · obtain rfl := Option.some.inj hmain
    exact landingFrame_isRoundable
  · -- there are two entries, and nothing is said about any other id
    by_cases htitle : "1:2" = id
    · obtain rfl := htitle
      exact .object landingTitle_isRoundable
    · by_cases hid : "1:3" = id
      · obtain rfl := hid
        exact .object hcard
      · refine .absent ?_
        show (fieldOrNull [("1:2", _), ("1:3", _)] id).isTruthy = false
        rw [fieldOrNull, Entries.get?, if_neg htitle, Entries.get?, if_neg hid]
        rfl

/-- The frame is fetched, a faulty card is told of, and the pages are listed. -/
theorem landing_answers_told :
    (∃ w', (fetchCommand landingArgs tokenConfig []).run cardWorld = (.ok 0, w') ∧
      Reported cardWorld (.ok 0) w') ∧
    (∃ w', (fetchCommand landingArgs tokenConfig []).run (landingWorld faultyCard) = (.ok 1, w') ∧
      (landingWorld faultyCard).talk.TellsLast w'.talk) ∧
    ∃ w', (pagesCommand ⟨some "K"⟩ tokenConfig []).run cardWorld = (.ok 0, w') ∧
      Reported cardWorld (.ok 0) w' := by
  have hfetch : ((fetchCommand landingArgs tokenConfig []).run cardWorld).1.toOption = some 0 := by
    decide +kernel
  have hfaulty : ((fetchCommand landingArgs tokenConfig []).run
      (landingWorld faultyCard)).1.toOption = some 1 := by
    decide +kernel
  have hpages : ((pagesCommand ⟨some "K"⟩ tokenConfig []).run cardWorld).1.toOption = some 0 := by
    decide +kernel
  have hfeasible : landingArgs.Feasible tokenConfig := ⟨by decide, "out", rfl⟩
  have hcard : IsRoundable (nodeData "1:3" "Card" "COMPONENT" [("width", .number (.int 200))]) :=
    isRoundable_of_isBare (by decide +kernel)
  have hfault : IsRoundable faultyCard := isRoundable_of_isBare (by decide +kernel)
  have hnone : landingArgs.plan tokenConfig [] (landingWorld faultyCard).talk = none :=
    Option.isNone_iff_eq_none.mp (by decide +kernel)
  have hwrite (plan : FetchPlan) (hplan : landingArgs.plan tokenConfig [] cardWorld.talk = some plan) :
      SucceedsFrom (writePlan plan) cardWorld.files := by
    obtain ⟨m, paths, hsettled, hrun⟩ :=
      (fetchCommand_twoPhase (run_of_toOption hfetch)).written_of_ok
    rw [hplan] at hsettled
    obtain rfl := Option.some.inj hsettled
    exact ⟨paths, _, hrun⟩
  refine ⟨⟨_, run_of_toOption hfetch, ?_⟩, ⟨_, run_of_toOption hfaulty, ?_⟩, _, run_of_toOption hpages, ?_⟩
  · exact ((bad_answers_told _ _ _ _ _ _).2 _ rfl hfeasible (landingResponses_fit hcard) hwrite
      (run_of_toOption hfetch)).1
  · have htold := ((bad_answers_told _ _ _ _ _ _).2 _ rfl hfeasible (landingResponses_fit hfault)
      (fun plan hplan => by cases hnone.symm.trans hplan) (run_of_toOption hfaulty)).1
    obtain hzero | ⟨-, htells⟩ := htold
    · cases hzero
    · exact htells
  · refine ((bad_answers_told _ _ _ _ _ _).1 _ _ _ rfl rfl (run_of_toOption hpages)).mpr fun _ =>
      ⟨_, rfl, .inr (.mk (.object ⟨_, rfl, fun v hv => ?_⟩))⟩
    obtain rfl := List.mem_singleton.mp hv
    exact .mk _

/-- A world in which the service gives one answer. -/
def answeredWorld (r : Response) : World :=
  ⟨.empty ["home"], ⟨"", ⟨[], [r]⟩⟩⟩

/-- A file of which the document has no list of children. -/
def childlessFile : Response :=
  ⟨200, .json (.object [("document", .object [("children", .null)])])⟩

/-- An answer that is no JSON. -/
def plainText : Response :=
  ⟨200, .text "busy"⟩

/-- **Neither is told of**: the command ends without a code. -/
theorem malformed_answers_escape :
    (∃ w', (pagesCommand ⟨some "K"⟩ tokenConfig []).run (answeredWorld childlessFile) =
      (.error (.lookup (.noElements .null)), w')) ∧
    (∃ w', (fetchCommand landingArgs tokenConfig []).run (answeredWorld childlessFile) =
      (.error (.lookup (.noElements .null)), w')) ∧
    ∃ e w', (pagesCommand ⟨some "K"⟩ tokenConfig []).run (answeredWorld plainText) =
      (.error (.api (.notJson e)), w') := by
  exact ⟨⟨_, rfl⟩, ⟨_, rfl⟩, _, _, rfl⟩

end DesignMarkup
