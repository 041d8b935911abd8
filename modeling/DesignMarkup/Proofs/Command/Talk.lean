import DesignMarkup.Command
import DesignMarkup.Proofs.Outcome

/-!
# `Proofs.Command.Talk` — talk that ends well

A command that asks the service may fail in ways that it tells of, and in others that it does not. Talk ends
well if only the first can happen. That composes: a sequence ends well if its parts do. All that a request adds
is what can become of its answer, which is the same for every request.

## Contents

* `orFail_ok`, `ask_ok`, `say_bind`: steps that succeed;
* `Talk.Extends`, `Talk.TellsLast`: what is printed;
* `IsRefusal`, `IsTold`: failures that commands tell of;
* `Ends`, `Ends.bind`: **talk that succeeds or fails with a failure that is told of**;
* `Ends.tellingFailures`: a line about the failure, and nothing fails any more;
* `Response.Fits`, `accept_cases`, `accept_iff`: answers;
* `getNodes_eq`, `ends_ask`: **requests**.
-/

namespace DesignMarkup

open Json (fieldOrNull)

/-! ## Steps of talk -/

section Steps

variable {α β ε : Type} {t t' : Talk}

theorem orFail_ok {failure : ε → Failure} {r : Except ε α} {a : α}
    (h : (orFail failure r).run t = (.ok a, t')) : r = .ok a ∧ t' = t := by
  obtain ⟨hr, rfl⟩ := Prod.mk.inj (h : (r.mapError failure, t) = (.ok a, t'))
  exact ⟨mapError_eq_ok.mp hr, rfl⟩

theorem ask_ok {m : Client.Asking α} {a : α} (h : (ask m).run t = (.ok a, t')) :
    m.run t.exchange = (.ok a, t'.exchange) := by
  obtain ⟨hr, rfl⟩ := Prod.mk.inj (h : ((m.run t.exchange).1.mapError Failure.api,
    { t with exchange := (m.run t.exchange).2 }) = (.ok a, t'))
  exact Prod.ext (mapError_eq_ok.mp hr) rfl

theorem say_bind (line : String) (f : Unit → Talking β) :
    (say line >>= f).run t = (f ()).run { t with printed := t.printed ++ (line ++ "\n") } :=
  rfl

end Steps

/-! ## What is printed -/

/-- Lines as they are printed. -/
def linesText (lines : List String) : String :=
  String.join (lines.map (· ++ "\n"))

theorem linesText_append (ls ms : List String) :
    linesText (ls ++ ms) = linesText ls ++ linesText ms := by
  rw [linesText, List.map_append, String.join_append]
  rfl

/-- From one moment to a later one, some lines have been printed. -/
def Talk.Extends (t t' : Talk) : Prop :=
  ∃ lines, t'.printed = t.printed ++ linesText lines

/-- **The last line that has been printed is about a failure.** -/
def Talk.TellsLast (t t' : Talk) : Prop :=
  ∃ lines message, t'.printed = t.printed ++ linesText (lines ++ ["❌ " ++ message])

namespace Talk

variable {t t₁ t₂ : Talk}

theorem Extends.of_printed_eq (h : t₁.printed = t.printed) : t.Extends t₁ :=
  ⟨[], h.trans (String.append_empty).symm⟩

theorem Extends.trans (h : t.Extends t₁) (h' : t₁.Extends t₂) : t.Extends t₂ := by
  obtain ⟨lines, hlines⟩ := h
  obtain ⟨lines', hlines'⟩ := h'
  refine ⟨lines ++ lines', ?_⟩
  rw [hlines', hlines, linesText_append, String.append_assoc]

theorem Extends.tellsLast (h : t.Extends t₁) (h' : t₁.TellsLast t₂) : t.TellsLast t₂ := by
  obtain ⟨lines, hlines⟩ := h
  obtain ⟨lines', message, hlines'⟩ := h'
  refine ⟨lines ++ lines', message, ?_⟩
  rw [hlines', hlines, List.append_assoc, linesText_append lines, String.append_assoc]

end Talk

/-! ## Talk that succeeds or fails with a failure that is told of -/

/-- The request was refused. -/
def IsRefusal : Failure → Prop
  | .api (.refused _ _) => True
  | _ => False

/-- Faulty data, or the request was refused. -/
def IsTold : Failure → Prop
  | .api (.refused _ _) => True
  | .data _ => True
  | _ => False

section Ends

variable {α β ε : Type} {told : Failure → Prop} {m : Talking α} {t : Talk} {Q : α → Talk → Prop}

/-- **Talk that ends well.** It succeeds with a result as wanted, or fails with one of the failures that are
told of; and it prints whole lines. -/
inductive Ends (told : Failure → Prop) (m : Talking α) (t : Talk) (Q : α → Talk → Prop) : Prop where
  | ok {a : α} {t' : Talk} : m.run t = (.ok a, t') → t.Extends t' → Q a t' → Ends told m t Q
  | failed {e : Failure} {t' : Talk} :
    m.run t = (.error e, t') → t.Extends t' → told e → Ends told m t Q

/-- **A sequence ends well** if its first part does, and the second after every result of the first. -/
theorem Ends.bind {f : α → Talking β} {R : β → Talk → Prop} (h : Ends told m t Q)
    (hf : ∀ a t', Q a t' → Ends told (f a) t' R) : Ends told (m >>= f) t R := by
  cases h with
  | failed hrun hextends htold => exact .failed (run_bind_error hrun) hextends htold
  | @ok a t' hrun hextends hQ =>
    cases hf a t' hQ with
    | ok hrun' hextends' hR =>
      exact .ok ((run_bind_ok hrun).trans hrun') (hextends.trans hextends') hR
    | failed hrun' hextends' htold =>
      exact .failed ((run_bind_ok hrun).trans hrun') (hextends.trans hextends') htold

theorem ends_pure {a : α} (h : Q a t) : Ends told (pure a) t Q :=
  .ok rfl (.of_printed_eq rfl) h

theorem extends_say (line : String) :
    t.Extends { t with printed := t.printed ++ (line ++ "\n") } :=
  ⟨[line], congrArg (t.printed ++ ·) (String.empty_append).symm⟩

/-- A line leaves the traffic as it is. -/
theorem ends_say (line : String) :
    Ends told (say line) t fun _ t' => t'.exchange = t.exchange ∧ t.Extends t' :=
  .ok rfl (extends_say line) ⟨rfl, extends_say line⟩

/-- A result that is there, or a failure that is told of. -/
theorem ends_orFail {failure : ε → Failure} {r : Except ε α}
    (h : (∃ a, r = .ok a ∧ Q a t) ∨ ∃ e, r = .error e ∧ told (failure e)) :
    Ends told (orFail failure r) t Q := by
  obtain ⟨a, rfl, hQ⟩ | ⟨e, rfl, htold⟩ := h
  · exact .ok rfl (.of_printed_eq rfl) hQ
  · exact .failed rfl (.of_printed_eq rfl) htold

/-- What comes out of it may be as little as is needed. -/
theorem Ends.mono {R : α → Talk → Prop} (h : Ends told m t Q) (hQ : ∀ a t', Q a t' → R a t') :
    Ends told m t R := by
  cases h with
  | ok hrun hextends hQ' => exact .ok hrun hextends (hQ _ _ hQ')
  | failed hrun hextends htold => exact .failed hrun hextends htold

/-- **Talk whose failures are told of** does not fail. It has a result as wanted, or it has none and a line
about the failure comes last. -/
theorem Ends.tellingFailures {handle : Failure → Talking (Option α)} (h : Ends told m t Q)
    (hhandle : ∀ e, told e → ∃ message, handle e = say ("❌ " ++ message) >>= fun _ => pure none) :
    Ends (fun _ => False) (tryCatch (some <$> m) handle) t fun found t' =>
      (∃ a, found = some a ∧ Q a t') ∨ found = none ∧ t.TellsLast t' := by
  rw [map_eq_pure_bind]
  cases h with
  | @ok a t' hrun hextends hQ =>
    exact .ok (run_tryCatch_ok (run_bind_ok hrun)) hextends (.inl ⟨a, rfl, hQ⟩)
  | @failed e t' hrun hextends htold =>
    obtain ⟨message, hline⟩ := hhandle e htold
    have hhandled : (handle e).run t' =
        (.ok none, { t' with printed := t'.printed ++ ("❌ " ++ message ++ "\n") }) := by
      rw [hline]
      rfl
    refine .ok ((run_tryCatch_error (run_bind_error hrun)).trans hhandled)
      (hextends.trans (extends_say _)) (.inr ⟨rfl, hextends.tellsLast ⟨[], message, ?_⟩⟩)
    rw [List.nil_append, linesText, List.map_singleton, String.join_cons, String.join_nil,
      String.append_empty]

end Ends

/-! ## Answers -/

/-- The answer gives an error. -/
inductive GivesError : Json → Prop where
  | mk {fields : List (String × Json)} :
    (fieldOrNull fields "err").isTruthy = true → GivesError (.object fields)

/-- **An answer that fits**: with status 200 it is JSON, which has the form or gives an error. With any other
status it may be anything. -/
def Response.Fits (form : Json → Prop) (r : Response) : Prop :=
  r.status = 200 → ∃ v, r.body.read = .ok v ∧ (GivesError v ∨ form v)

/-- **All that can become of an answer**: it is refused for its status or for the error that it gives, it is
no JSON, or its value is accepted. -/
theorem accept_cases (r : Response) :
    (∃ message status, Client.accept r = .error (.refused message status) ∧
      (r.status = 200 → ∃ v, r.body.read = .ok v ∧ GivesError v)) ∨
    (∃ e, Client.accept r = .error (.notJson e) ∧ r.status = 200 ∧ r.body.read = .error e) ∨
    (∃ v, Client.accept r = .ok v ∧ r.status = 200 ∧ r.body.read = .ok v ∧ ¬GivesError v) := by
  rw [Client.accept]
  by_cases hstatus : r.status = 200
  · rw [if_neg (not_not_intro hstatus)]
    split
    · next e hbody => exact .inr (.inl ⟨e, rfl, hstatus, hbody⟩)
    · next fields hbody =>
      dsimp only
      split
      · next herr => exact .inl ⟨_, _, rfl, fun _ => ⟨_, hbody, .mk herr⟩⟩
      · next herr =>
        refine .inr (.inr ⟨_, rfl, hstatus, hbody, ?_⟩)
        rintro ⟨h⟩
        exact herr h
    · next v hobject hbody =>
      refine .inr (.inr ⟨v, rfl, hstatus, hbody, ?_⟩)
      rintro ⟨h⟩
      exact hobject _ rfl
  · rw [if_pos hstatus]
    exact .inl ⟨_, _, rfl, fun h => absurd h hstatus⟩

/-- **An answer is accepted or refused** exactly if it fits. -/
theorem accept_iff (form : Json → Prop) (r : Response) :
    ((∃ v, Client.accept r = .ok v ∧ form v) ∨
      ∃ message status, Client.accept r = .error (.refused message status)) ↔ r.Fits form := by
  obtain ⟨message, status, haccept, hgives⟩ | ⟨e, haccept, hstatus, hbody⟩ |
    ⟨v, haccept, hstatus, hbody, hnone⟩ := accept_cases r
  · refine iff_of_true (.inr ⟨message, status, haccept⟩) fun hstatus => ?_
    obtain ⟨v, hbody, herr⟩ := hgives hstatus
    exact ⟨v, hbody, .inl herr⟩
  · refine iff_of_false ?_ fun hfits => ?_
    · rw [haccept]
      rintro (⟨v, hv, -⟩ | ⟨message, status, he⟩)
      · cases hv
      · cases he
    · obtain ⟨v, hv, -⟩ := hfits hstatus
      cases hbody.symm.trans hv
  · rw [haccept]
    constructor
    · rintro (⟨v', hv', hform⟩ | ⟨message, status, he⟩)
      · obtain rfl := Except.ok.inj hv'
        exact fun _ => ⟨v, hbody, .inr hform⟩
      · cases he
    · intro hfits
      obtain ⟨v', hv', hgives | hform⟩ := hfits hstatus
      · obtain rfl := Except.ok.inj (hbody.symm.trans hv')
        exact absurd hgives hnone
      · obtain rfl := Except.ok.inj (hbody.symm.trans hv')
        exact .inl ⟨v, rfl, hform⟩

/-! ## Requests -/

/-- Ids that are texts pass as they are. -/
theorem mapM_requireText (v : Json) (ids : List String) :
    (ids.map Json.string).mapM (Client.requireText v) = .ok ids := by
  induction ids with
  | nil => rfl
  | cons id rest ih =>
    rw [List.map_cons, List.mapM_cons, ih]
    rfl

/-- Nodes whose ids are texts can be asked for. -/
theorem getNodes_eq (client : Client) (fileKey : Json) (ids : List String) :
    client.getNodes fileKey (.array (ids.map .string)) =
      client.send (Client.fileUrl fileKey ++ "/nodes") [("ids", ",".intercalate ids)] := by
  rw [Client.getNodes, Client.joinIds, Lookup.elementsOf]
  dsimp only
  rw [mapM_requireText]
  rfl

/-- A request takes the next answer. -/
theorem run_ask_send {t : Talk} {r : Response} {rest : List Response}
    (hpending : t.exchange.pending = r :: rest) (c : Client) (url : String)
    (params : List (String × String)) :
    (ask (c.send url params)).run t = ((Client.accept r).mapError .api,
      { t with exchange :=
          ⟨t.exchange.sent ++ [⟨url, params, c.timeout, c.token, contentType⟩], rest⟩ }) := by
  obtain ⟨printed, sent, pending⟩ := t
  obtain rfl : pending = r :: rest := hpending
  rfl

/-- **A request that is answered fittingly** gets a value of the form, or is refused. -/
theorem ends_ask {told : Failure → Prop} (htold : ∀ message status, told (.api (.refused message status)))
    {form : Json → Prop} {t : Talk} {r : Response} {rest : List Response}
    (hpending : t.exchange.pending = r :: rest) (hfits : r.Fits form) (c : Client) (url : String)
    (params : List (String × String)) :
    Ends told (ask (c.send url params)) t fun v t' => form v ∧ t'.exchange.pending = rest := by
  have hrun := run_ask_send hpending c url params
  obtain ⟨v, haccept, hform⟩ | ⟨message, status, haccept⟩ := (accept_iff form r).mpr hfits
  · rw [haccept] at hrun
    exact .ok hrun (.of_printed_eq rfl) ⟨hform, rfl⟩
  · rw [haccept] at hrun
    exact .failed hrun (.of_printed_eq rfl) (htold message status)

end DesignMarkup
