import Flowchart.Proofs.Server.Change
import Flowchart.Proofs.Text.Spelled
import Flowchart.Proofs.Text.Trim

/-! How exports end, and how the requests for them are answered. -/
namespace Flowchart.Server

open Schema

/-- The kinds of errors that callers of an export tell apart. -/
inductive ErrorKind
  | badInput
  | failedService
  | unforeseen
deriving DecidableEq

namespace ExportError

def kind : ExportError → ErrorKind
  | noCode => .badInput
  | badFormat _ => .badInput
  | unsendable _ => .badInput
  | unreachable _ => .failedService
  | refused _ => .failedService
  | unreadableRefusal => .unforeseen
  | tooDeepRefusal => .unforeseen

/-- The error has a message that can be sent. -/
def IsTold (e : ExportError) : Prop :=
  ∃ message, e.message? = some message ∧ Text.isWhole message.toList = true

end ExportError

def ExportOrder.IsSendable [HttpClient] (order : ExportOrder) : Prop :=
  HttpClient.refusal? order = none

namespace Rendering

section

variable [Json.Nesting] [HttpClient]

/-- An answer with an error status and a JSON text in which no detail is found: its value is no object, or it
is nested too deep to be read, or the detail is nested too deep to be shown. -/
inductive IsMisread : Rendering → Prop
  | noObject {status : Nat} {body : Http.Bytes} {value : Json} (hstatus : 400 ≤ status)
      (hvalue : body.value = .ok value) (hno : ∀ fields, value ≠ .object fields) :
      IsMisread (.answered status body)
  | tooDeep {status : Nat} {body : Http.Bytes} (hstatus : 400 ≤ status)
      (hvalue : body.value = .error (.unreadable .tooDeep)) : IsMisread (.answered status body)
  | unshown {status : Nat} {body : Http.Bytes} {fields : List (String × Json)} (hstatus : 400 ≤ status)
      (hvalue : body.value = .ok (.object fields))
      (hdeep : HttpClient.canShow (ExportOrder.detail fields) = false) :
      IsMisread (.answered status body)

/-- What the service says about its failure holds half of a surrogate pair. -/
inductive IsHalved : Rendering → Prop
  | unreachable {reason : String} (hhalf : Text.isWhole reason.toList = false) :
      IsHalved (.unreachable reason)
  | answered {status : Nat} {body : Http.Bytes} {fields : List (String × Json)} {detail : String}
      (hstatus : 400 ≤ status) (hvalue : body.value = .ok (.object fields))
      (hdetail : Json.field? fields "error" = some (.string detail))
      (hhalf : Text.isWhole detail.toList = false) : IsHalved (.answered status body)
  | plain {status : Nat} {body : Http.Bytes} {e : Http.BodyError} (hstatus : 400 ≤ status)
      (hvalue : body.value = .error e)
      (hhalf : Text.isWhole (HttpClient.text body).toList = false) : IsHalved (.answered status body)

end

/-- What callers are promised: the body of an answer without an error status, or an error that is the
service's. -/
def promised : Rendering → Except ErrorKind Http.Bytes
  | .unreachable _ => .error .failedService
  | .answered status body => if status < 400 then .ok body else .error .failedService

end Rendering

namespace Export

/-- The text is empty or all white space. -/
def IsBlank (code : String) : Prop :=
  ∀ c ∈ code.toList, Text.isBlank c = true

instance (code : String) : Decidable (IsBlank code) :=
  inferInstanceAs (Decidable (∀ c ∈ code.toList, Text.isBlank c = true))

def promised (renderer : Renderer) (code : String) (format : ExportFormat) :
    Except ErrorKind Http.Bytes :=
  if IsBlank code then .error .badInput else (renderer ⟨code, format⟩).promised

section

variable [Json.Nesting] [HttpClient]

/-- What they see of an export. -/
def outcome (renderer : Renderer) (code : String) (format : ExportFormat) :
    Except ErrorKind Http.Bytes :=
  (run renderer code (.ok format)).result.mapError ExportError.kind

/-- How an export ends: as promised, but for orders that cannot be sent, which are some of those with half of
a surrogate pair, and for refusals that are misread. -/
structure Ends (renderer : Renderer) (code : String) (format : ExportFormat) : Prop where
  sent : ∀ order, (run renderer code (.ok format)).sent = some order ↔
    order = ⟨code, format⟩ ∧ ¬IsBlank code ∧ order.IsSendable
  promised_iff : outcome renderer code format = promised renderer code format ↔
    IsBlank code ∨
      ExportOrder.IsSendable ⟨code, format⟩ ∧ ¬(renderer ⟨code, format⟩).IsMisread
  badInput_iff : outcome renderer code format = .error .badInput ↔
    IsBlank code ∨ ¬ExportOrder.IsSendable ⟨code, format⟩
  unforeseen_iff : outcome renderer code format = .error .unforeseen ↔
    ¬IsBlank code ∧ ExportOrder.IsSendable ⟨code, format⟩ ∧ (renderer ⟨code, format⟩).IsMisread
  halved : ¬ExportOrder.IsSendable ⟨code, format⟩ → Text.isWhole code.toList = false

/-- How the export ended cannot be told in an answer. -/
structure IsLost (renderer : Renderer) (code : String) (format : ExportFormat) : Prop where
  notBlank : ¬IsBlank code
  sendable : ExportOrder.IsSendable ⟨code, format⟩
  cause : (renderer ⟨code, format⟩).IsMisread ∨ (renderer ⟨code, format⟩).IsHalved

end

end Export

def ErrorKind.status : ErrorKind → Nat
  | badInput => 400
  | failedService => 502
  | unforeseen => 500

/-- The request asks for an export. -/
def Request.Exports [Framework] (request : Request) (r : Request.Export) : Prop :=
  Framework.find request.method request.path = .ok .exportText ∧
    App.Gives request.body Request.Export.rule r

namespace App

/-- The answer to a request for an export tells how it ended, unless this is lost. -/
structure AnswersExport [Json.Nesting] [HttpClient] (app : App) (renderer : Renderer) (r : Request.Export)
    (response : Response) : Prop where
  unchanged : response.app = app
  ordered : response.ordered = (app.runExport renderer r).sent
  status_iff : response.answer.status ∈ [200, 400, 502] ↔
    ¬Export.IsLost renderer (r.code.getD app.text) r.format
  lost : Export.IsLost renderer (r.code.getD app.text) r.format → response.answer = .broken
  done : ∀ body, Export.outcome renderer (r.code.getD app.text) r.format = .ok body →
    response.answer = ⟨200, .file body r.format.mediaType ("diagram." ++ r.format.name)⟩
  failed : ∀ kind, Export.outcome renderer (r.code.getD app.text) r.format = .error kind →
    ¬Export.IsLost renderer (r.code.getD app.text) r.format → response.answer.status = kind.status

end App

open Text (IsSpelled)

section Messages

theorem isSpelled_toString (n : Nat) : IsSpelled (toString n).toList := by
  rw [Nat.toString_eq_repr, Nat.toList_repr]
  exact Json.isSpelled_intText n

theorem isSpelled_halvesText (text : List Char) : IsSpelled (ExportOrder.halvesText text).toList := by
  have hone : IsSpelled "character ".toList := Text.isSpelled_of_low (by decide)
  have hmany : IsSpelled "characters in position ".toList := Text.isSpelled_of_low (by decide)
  have hplace : IsSpelled " in position ".toList := Text.isSpelled_of_low (by decide)
  have hdash : IsSpelled "-".toList := Text.isSpelled_of_low (by decide)
  unfold ExportOrder.halvesText
  simp only
  split
  · simp only [String.toList_append, String.toList_ofList]
    exact ((hone.append (Text.isSpelled_quoted _)).append hplace).append (isSpelled_toString _)
  · simp only [String.toList_append]
    exact ((hmany.append (isSpelled_toString _)).append hdash).append (isSpelled_toString _)

theorem isSpelled_encodingText (order : ExportOrder) : IsSpelled order.encodingText.toList := by
  have hname : IsSpelled (Text.quoted "utf-8".toList) := Text.isSpelled_quoted _
  have hcodec : IsSpelled " codec ".toList := Text.isSpelled_of_low (by decide)
  have hcannot : IsSpelled ['c', 'a', 'n', Text.singleQuote, 't'] := Text.isSpelled_of_low (by decide)
  have hencode : IsSpelled " encode ".toList := Text.isSpelled_of_low (by decide)
  have hend : IsSpelled ": surrogates not allowed".toList := Text.isSpelled_of_low (by decide)
  rw [ExportOrder.encodingText]
  simp only [String.toList_append, String.toList_ofList]
  exact ((((hname.append hcodec).append hcannot).append hencode).append
    (isSpelled_halvesText _)).append hend

instance : LawfulHttpClient where
  refusal?_of_isWhole order h := if_pos h
  isWhole_of_refusal? order reason h := by
    simp only [HttpClient.refusal?, Option.ite_none_left_eq_some, Option.some.injEq] at h
    rw [← h.2]
    exact (isSpelled_encodingText order).isWhole

/-- What stands behind a spelled text in a message decides whether the error is told. -/
theorem isTold_iff {e : ExportError} {front rest : String} (hfront : IsSpelled front.toList)
    (hmessage : e.message? = some (front ++ rest)) : e.IsTold ↔ Text.isWhole rest.toList = true := by
  rw [← hfront.isWhole_append rest.toList, ← String.toList_append]
  refine ⟨?_, fun h => ⟨_, hmessage, h⟩⟩
  rintro ⟨message, hother, hwhole⟩
  rwa [← Option.some.inj (hother.symm.trans hmessage)]

theorem isTold_refused_iff (detail : String) :
    (ExportError.refused detail).IsTold ↔ Text.isWhole detail.toList = true :=
  isTold_iff (Text.isSpelled_of_low (by decide)) rfl

theorem isTold_unreachable_iff (reason : String) :
    (ExportError.unreachable reason).IsTold ↔ Text.isWhole reason.toList = true :=
  isTold_iff (Text.isSpelled_of_low (by decide)) rfl

theorem kind_ne_unforeseen {e : ExportError} (h : e.IsTold) : e.kind ≠ .unforeseen := by
  obtain ⟨message, hmessage, -⟩ := h
  cases e with
  | unreadableRefusal => cases hmessage
  | tooDeepRefusal => cases hmessage
  | _ => nofun

/-- The detail of a refusal in an object is the text of its error field. -/
theorem isWhole_detail_iff (fields : List (String × Json)) :
    Text.isWhole (ExportOrder.detail fields).toDisplayString.toList = false ↔
      ∃ detail, Json.field? fields "error" = some (.string detail) ∧
        Text.isWhole detail.toList = false := by
  rw [Json.isWhole_toDisplayString_iff, ExportOrder.detail]
  cases Json.field? fields "error" with
  | some value => simp
  | none =>
    have hstandard : IsSpelled "Unknown error".toList := Text.isSpelled_of_low (by decide)
    refine iff_of_false ?_ nofun
    rintro ⟨s, hs, hhalf⟩
    cases hs
    exact ne_false_of_eq_true hstandard.isWhole hhalf

theorem isWhole_plain_iff (status : Nat) (text : String) :
    Text.isWhole (if text.isEmpty then "HTTP " ++ toString status else text).toList = false ↔
      Text.isWhole text.toList = false := by
  split_ifs with hempty
  · have htold : IsSpelled ("HTTP " ++ toString status).toList := by
      rw [String.toList_append]
      exact (Text.isSpelled_of_low (by decide)).append (isSpelled_toString status)
    have htext : text = "" := String.isEmpty_iff.mp hempty
    rw [htext]
    exact iff_of_false (ne_false_of_eq_true htold.isWhole) (by decide)
  · rfl

end Messages

section Conclusion

variable [Json.Nesting] [HttpClient] {status : Nat} {body : Http.Bytes}

theorem refusal_of_isMisread (h : (Rendering.answered status body).IsMisread) :
    (ExportOrder.refusal status body).kind = .unforeseen := by
  cases h with
  | @noObject _ _ value _ hvalue hno =>
    rw [ExportOrder.refusal, hvalue]
    cases value with
    | object fields => exact absurd rfl (hno fields)
    | _ => rfl
  | tooDeep _ hvalue =>
    rw [ExportOrder.refusal, hvalue]
    rfl
  | unshown _ hvalue hdeep =>
    rw [ExportOrder.refusal, hvalue]
    simp only [hdeep, Bool.false_eq_true, if_false]
    rfl

/-- A refusal that is not misread has a detail, which holds halves only if the service wrote them. -/
theorem exists_refusal (hstatus : 400 ≤ status) (h : ¬(Rendering.answered status body).IsMisread) :
    ∃ detail, ExportOrder.refusal status body = .refused detail ∧
      (Text.isWhole detail.toList = false ↔ (Rendering.answered status body).IsHalved) := by
  rw [ExportOrder.refusal]
  cases hvalue : body.value with
  | ok value =>
    cases value with
    | object fields =>
      have hshown : HttpClient.canShow (ExportOrder.detail fields) = true := by
        by_contra hdeep
        exact h (.unshown hstatus hvalue (Bool.not_eq_true _ ▸ hdeep))
      refine ⟨_, if_pos hshown, (isWhole_detail_iff fields).trans ⟨?_, ?_⟩⟩
      · rintro ⟨detail, hdetail, hhalf⟩
        exact .answered hstatus hvalue hdetail hhalf
      · rintro (_ | ⟨-, hother, hdetail, hhalf⟩ | ⟨-, hother, -⟩)
        · cases hvalue.symm.trans hother
          exact ⟨_, hdetail, hhalf⟩
        · cases hvalue.symm.trans hother
    | _ => exact absurd (.noObject hstatus hvalue nofun) h
  | error e =>
    -- There is no value, so that only the last two cases of a refusal are left.
    split
    · next hother => cases hother
    · next hother => cases hother
    · next hdeep =>
      cases hdeep
      exact absurd (.tooDeep hstatus hvalue) h
    · refine ⟨_, rfl, (isWhole_plain_iff status _).trans ⟨.plain hstatus hvalue, ?_⟩⟩
      rintro (_ | ⟨-, hother, -, -⟩ | ⟨-, -, hhalf⟩)
      · cases hvalue.symm.trans hother
      · exact hhalf

end Conclusion

namespace Rendering

variable [Json.Nesting] [HttpClient]

/-- The error tells of the failure, but for the two cases. -/
structure Reports (rendering : Rendering) (e : ExportError) : Prop where
  misread : rendering.IsMisread → e.kind = .unforeseen
  clear : ¬rendering.IsMisread → e.kind = .failedService
  told_iff : e.IsTold ↔ ¬(rendering.IsMisread ∨ rendering.IsHalved)

theorem reports_refusal {status : Nat} {body : Http.Bytes} (hstatus : 400 ≤ status) :
    (answered status body).Reports (ExportOrder.refusal status body) := by
  by_cases h : (answered status body).IsMisread
  · have hkind := refusal_of_isMisread h
    exact ⟨fun _ => hkind, fun hclear => absurd h hclear,
      iff_of_false (fun htold => kind_ne_unforeseen htold hkind) (not_not.mpr (.inl h))⟩
  · obtain ⟨detail, hdetail, hhalf⟩ := exists_refusal hstatus h
    rw [hdetail]
    refine ⟨fun hmisread => absurd hmisread h, fun _ => rfl, ?_⟩
    rw [isTold_refused_iff, ← Bool.not_eq_false, or_iff_right h, hhalf]

theorem reports_unreachable (reason : String) :
    (unreachable reason).Reports (.unreachable reason) := by
  have hclear : ¬(unreachable reason).IsMisread := nofun
  refine ⟨fun h => absurd h hclear, fun _ => rfl, ?_⟩
  rw [isTold_unreachable_iff, ← Bool.not_eq_false, or_iff_right hclear]
  exact not_congr ⟨.unreachable, fun | .unreachable hhalf => hhalf⟩

/-- A rendering is concluded as promised, or with an error where an error is promised. -/
theorem conclude_cases (rendering : Rendering) :
    (∃ body, rendering.promised = .ok body ∧ rendering.conclude = .ok body ∧
      ¬(rendering.IsMisread ∨ rendering.IsHalved)) ∨
    ∃ e, rendering.promised = .error .failedService ∧ rendering.conclude = .error e ∧
      rendering.Reports e := by
  cases rendering with
  | unreachable reason => exact .inr ⟨_, rfl, rfl, reports_unreachable reason⟩
  | answered status body =>
    by_cases hstatus : 400 ≤ status
    · exact .inr ⟨_, if_neg (not_lt.mpr hstatus), if_pos (decide_eq_true hstatus),
        reports_refusal hstatus⟩
    · refine .inl ⟨body, if_pos (not_le.mp hstatus), ?_, ?_⟩
      · exact if_neg (by simpa [Http.isError] using hstatus)
      · rintro (h | h) <;> cases h <;> contradiction

end Rendering

namespace Export

variable {renderer : Renderer} {code : String} {format : ExportFormat}

theorem isEmpty_trim_iff (code : String) : (Text.trim code.toList).isEmpty = true ↔ IsBlank code :=
  List.isEmpty_iff.trans Text.trim_eq_nil_iff

theorem isTold_noCode : ExportError.noCode.IsTold :=
  ⟨_, rfl, (Text.isSpelled_of_low (by decide)).isWhole⟩

variable [HttpClient]

theorem exists_refusal?_of_not_isSendable {order : ExportOrder} (hno : ¬order.IsSendable) :
    ∃ reason, HttpClient.refusal? order = some reason :=
  Option.ne_none_iff_exists'.mp hno

variable [Json.Nesting]

theorem run_blank (h : IsBlank code) : run renderer code (.ok format) = ⟨none, .error .noCode⟩ := by
  rw [run, ExportOrder.make, if_pos ((isEmpty_trim_iff code).mpr h)]

theorem run_unsendable (h : ¬IsBlank code) {reason : String}
    (hrefusal : HttpClient.refusal? ⟨code, format⟩ = some reason) :
    run renderer code (.ok format) = ⟨none, .error (.unsendable reason)⟩ := by
  rw [run, ExportOrder.make, if_neg (mt (isEmpty_trim_iff code).mp h)]
  simp only [hrefusal]

theorem run_sent (h : ¬IsBlank code) (hsendable : ExportOrder.IsSendable ⟨code, format⟩) :
    run renderer code (.ok format) = ⟨some ⟨code, format⟩, (renderer ⟨code, format⟩).conclude⟩ := by
  rw [ExportOrder.IsSendable] at hsendable
  rw [run, ExportOrder.make, if_neg (mt (isEmpty_trim_iff code).mp h)]
  simp only [hsendable]

theorem sent_run_iff (renderer : Renderer) (code : String) (format : ExportFormat)
    (order : ExportOrder) : (run renderer code (.ok format)).sent = some order ↔
      order = ⟨code, format⟩ ∧ ¬IsBlank code ∧ order.IsSendable := by
  by_cases h : IsBlank code
  · rw [run_blank h]
    exact iff_of_false nofun fun hsent => hsent.2.1 h
  by_cases hsendable : ExportOrder.IsSendable ⟨code, format⟩
  · rw [run_sent h hsendable, Option.some.injEq]
    constructor
    · intro hsent
      exact hsent ▸ ⟨rfl, h, hsendable⟩
    · exact fun hsent => hsent.1.symm
  · obtain ⟨reason, hrefusal⟩ := exists_refusal?_of_not_isSendable hsendable
    rw [run_unsendable h hrefusal]
    refine iff_of_false nofun ?_
    intro hsent
    obtain ⟨rfl, -, hsends⟩ := hsent
    exact hsendable hsends

theorem outcome_blank (h : IsBlank code) : outcome renderer code format = .error .badInput := by
  rw [outcome, run_blank h]
  rfl

theorem outcome_unsendable (hno : ¬ExportOrder.IsSendable ⟨code, format⟩) :
    outcome renderer code format = .error .badInput := by
  by_cases h : IsBlank code
  · exact outcome_blank h
  · obtain ⟨reason, hrefusal⟩ := exists_refusal?_of_not_isSendable hno
    rw [outcome, run_unsendable h hrefusal]
    rfl

theorem outcome_misread (h : ¬IsBlank code) (hsendable : ExportOrder.IsSendable ⟨code, format⟩)
    (hmisread : (renderer ⟨code, format⟩).IsMisread) :
    outcome renderer code format = .error .unforeseen := by
  rw [outcome, run_sent h hsendable]
  rcases (renderer ⟨code, format⟩).conclude_cases with ⟨body, -, -, hno⟩ | ⟨e, -, he, hreports⟩
  · exact absurd (.inl hmisread) hno
  · rw [he, ← hreports.misread hmisread]
    rfl

theorem outcome_clear (h : ¬IsBlank code) (hsendable : ExportOrder.IsSendable ⟨code, format⟩)
    (hclear : ¬(renderer ⟨code, format⟩).IsMisread) :
    outcome renderer code format = promised renderer code format := by
  rw [outcome, run_sent h hsendable, promised, if_neg h]
  rcases (renderer ⟨code, format⟩).conclude_cases with
    ⟨body, hbody, hconclude, -⟩ | ⟨e, hfailed, he, hreports⟩
  · rw [hbody, hconclude]
    rfl
  · rw [hfailed, he, ← hreports.clear hclear]
    rfl

theorem eq_of_promised (h : ¬IsBlank code) {kind : ErrorKind}
    (hkind : promised renderer code format = .error kind) : kind = .failedService := by
  rw [promised, if_neg h] at hkind
  rcases (renderer ⟨code, format⟩).conclude_cases with ⟨body, hbody, -⟩ | ⟨e, hfailed, -⟩
  · cases hbody.symm.trans hkind
  · cases hfailed.symm.trans hkind
    rfl

theorem ends [LawfulHttpClient] (renderer : Renderer) (code : String) (format : ExportFormat) :
    Ends renderer code format where
  sent := sent_run_iff renderer code format
  promised_iff := by
    by_cases hblank : IsBlank code
    · refine iff_of_true ?_ (.inl hblank)
      rw [outcome_blank hblank, promised, if_pos hblank]
    rw [or_iff_right hblank]
    refine ⟨fun hpromised => ?_, fun ⟨hsendable, hclear⟩ => outcome_clear hblank hsendable hclear⟩
    have hsendable : ExportOrder.IsSendable ⟨code, format⟩ := by
      by_contra hno
      rw [outcome_unsendable hno] at hpromised
      cases eq_of_promised hblank hpromised.symm
    refine ⟨hsendable, fun hmisread => ?_⟩
    rw [outcome_misread hblank hsendable hmisread] at hpromised
    cases eq_of_promised hblank hpromised.symm
  badInput_iff := by
    refine ⟨fun hbad => ?_, fun h => h.elim outcome_blank outcome_unsendable⟩
    by_contra hsent
    rw [not_or, not_not] at hsent
    by_cases hmisread : (renderer ⟨code, format⟩).IsMisread
    · cases (outcome_misread hsent.1 hsent.2 hmisread).symm.trans hbad
    · cases eq_of_promised hsent.1 ((outcome_clear hsent.1 hsent.2 hmisread).symm.trans hbad)
  unforeseen_iff := by
    refine ⟨fun hunforeseen => ?_, fun ⟨hblank, hsendable, h⟩ => outcome_misread hblank hsendable h⟩
    have hblank : ¬IsBlank code := by
      intro hblank
      cases (outcome_blank hblank).symm.trans hunforeseen
    have hsendable : ExportOrder.IsSendable ⟨code, format⟩ := by
      by_contra hno
      cases (outcome_unsendable hno).symm.trans hunforeseen
    refine ⟨hblank, hsendable, ?_⟩
    by_contra hclear
    cases eq_of_promised hblank ((outcome_clear hblank hsendable hclear).symm.trans hunforeseen)
  halved hno := by
    by_contra hwhole
    rw [Bool.not_eq_false] at hwhole
    exact hno (LawfulHttpClient.refusal?_of_isWhole ⟨code, format⟩ hwhole)

/-- An export is lost exactly if it ends with an error that is not told. -/
theorem isLost_iff [LawfulHttpClient] : IsLost renderer code format ↔
    ∃ e, (run renderer code (.ok format)).result = .error e ∧ ¬e.IsTold := by
  by_cases hblank : IsBlank code
  · rw [run_blank hblank]
    refine iff_of_false (fun h => h.notBlank hblank) ?_
    rintro ⟨e, he, htold⟩
    cases he
    exact htold isTold_noCode
  by_cases hsendable : ExportOrder.IsSendable ⟨code, format⟩
  · rw [run_sent hblank hsendable]
    have hcause : IsLost renderer code format ↔
        (renderer ⟨code, format⟩).IsMisread ∨ (renderer ⟨code, format⟩).IsHalved :=
      ⟨IsLost.cause, fun h => ⟨hblank, hsendable, h⟩⟩
    rw [hcause]
    rcases (renderer ⟨code, format⟩).conclude_cases with
      ⟨body, -, hconclude, hno⟩ | ⟨e, -, hconclude, hreports⟩
    · exact iff_of_false hno (by simp [hconclude])
    · constructor
      · exact fun h => ⟨e, hconclude, fun htold => hreports.told_iff.mp htold h⟩
      · rintro ⟨e', he', htold⟩
        cases hconclude.symm.trans he'
        exact not_not.mp (mt hreports.told_iff.mpr htold)
  · obtain ⟨reason, hrefusal⟩ := exists_refusal?_of_not_isSendable hsendable
    rw [run_unsendable hblank hrefusal]
    refine iff_of_false (fun h => hsendable h.sendable) ?_
    intro h
    obtain ⟨e, he, htold⟩ := h
    cases he
    exact htold ⟨reason, rfl, LawfulHttpClient.isWhole_of_refusal? _ reason hrefusal⟩

end Export

namespace App

variable {app : App} {renderer : Renderer} {request : Request} {r : Request.Export} {e : ExportError}

section Answers

variable {format : ExportFormat}

instance [Json.Nesting] : LawfulFramework where
  canSend_detail detail := by
    have hkey : Text.isWhole "detail".toList = true := (Text.isSpelled_of_low (by decide)).isWhole
    simp only [Framework.canSend, Json.isSendable, Json.isFinite, Json.isWhole, Json.leaves,
      Json.leavesOfFields, List.append_nil, List.all_cons, List.all_nil, hkey, Bool.true_and,
      Bool.and_true]

theorem sent_refused [Framework] [LawfulFramework] (status : Nat) (detail : String) :
    (Answer.refused status detail).sent =
      if Text.isWhole detail.toList then .refused status detail else .broken := by
  rw [Answer.sent, Answer.refused]
  simp only [LawfulFramework.canSend_detail]

theorem exportAnswer_error {message : String} (h : e.message? = some message) :
    exportAnswer format (.error e) = .refused e.kind.status message := by
  -- The message comes first: with the constructor known, the texts would be unfolded.
  simp only [exportAnswer.eq_def, h]
  cases e with
  | unreadableRefusal => cases h
  | tooDeepRefusal => cases h
  | _ => rfl

variable [Framework] [LawfulFramework]

/-- An error that is told is answered with the status of its kind, and any other breaks the answer. -/
theorem status_exportAnswer (h : e.IsTold) :
    (exportAnswer format (.error e)).sent.status = e.kind.status := by
  obtain ⟨message, hmessage, hwhole⟩ := h
  rw [exportAnswer_error hmessage, sent_refused, if_pos hwhole]
  rfl

theorem exportAnswer_of_not_told (h : ¬e.IsTold) : (exportAnswer format (.error e)).sent = .broken := by
  cases hmessage : e.message? with
  | some message =>
    have hhalf : ¬Text.isWhole message.toList = true := fun hwhole => h ⟨message, hmessage, hwhole⟩
    rw [exportAnswer_error hmessage, sent_refused, if_neg hhalf]
  | none =>
    cases e with
    | unreadableRefusal => rfl
    | tooDeepRefusal => rfl
    | _ => cases hmessage

theorem status_exportAnswer_mem_iff :
    (exportAnswer format (.error e)).sent.status ∈ [200, 400, 502] ↔ e.IsTold := by
  constructor
  · intro hstatus
    by_contra htold
    rw [exportAnswer_of_not_told htold] at hstatus
    exact absurd (show 500 ∈ [200, 400, 502] from hstatus) (by decide)
  · intro htold
    rw [status_exportAnswer htold]
    cases hkind : e.kind with
    | unforeseen => exact absurd hkind (kind_ne_unforeseen htold)
    | _ => decide

end Answers

section

variable [Json.Nesting] [HttpClient] [Framework] [Coercion]

theorem handle_of_exports (h : request.Exports r) : app.handle renderer request =
    ⟨app, (exportAnswer r.format (app.runExport renderer r).result).sent,
      (app.runExport renderer r).sent⟩ := by
  have hgives : (Framework.read request.body).check (Request.Export.rule .notRecord) =
      .ok (.valid r) := h.2
  rw [handle, h.1]
  simp only [perform, withBody, hgives]

theorem answersExport [LawfulHttpClient] [LawfulFramework] (h : request.Exports r) :
    app.AnswersExport renderer r (app.handle renderer request) := by
  have hlost : Export.IsLost renderer (r.code.getD app.text) r.format ↔
      ∃ e, (app.runExport renderer r).result = .error e ∧ ¬e.IsTold := Export.isLost_iff
  have houtcome : Export.outcome renderer (r.code.getD app.text) r.format =
      (app.runExport renderer r).result.mapError ExportError.kind := rfl
  rw [handle_of_exports h]
  cases hresult : (app.runExport renderer r).result with
  | ok body =>
    rw [hresult] at hlost houtcome
    have hno : ¬Export.IsLost renderer (r.code.getD app.text) r.format := by
      rw [hlost]
      nofun
    refine ⟨rfl, rfl, iff_of_true List.mem_cons_self hno, fun h => absurd h hno, fun other hother => ?_,
      fun kind hkind => ?_⟩
    · cases houtcome.symm.trans hother
      rfl
    · cases houtcome.symm.trans hkind
  | error e =>
    have hnot : Export.IsLost renderer (r.code.getD app.text) r.format ↔ ¬e.IsTold := by
      rw [hlost, hresult]
      simp
    rw [hresult] at houtcome
    refine ⟨rfl, rfl, ?_, fun h => exportAnswer_of_not_told (hnot.mp h), fun other hother => ?_,
      fun kind hkind hkept => ?_⟩
    · rw [hnot, not_not]
      exact status_exportAnswer_mem_iff
    · cases houtcome.symm.trans hother
    · cases houtcome.symm.trans hkind
      exact status_exportAnswer (not_not.mp (mt hnot.mpr hkept))

/-- Every export ends as promised, but for orders that cannot be sent and for refusals that are misread, and
a request for one is answered with one of three statuses exactly if its end is not lost. -/
theorem exports_end [LawfulHttpClient] [LawfulFramework] (app : App) (renderer : Renderer) :
    (∀ code format, Export.Ends renderer code format) ∧
      ∀ request r, Request.Exports request r →
        app.AnswersExport renderer r (app.handle renderer request) :=
  ⟨Export.ends renderer, fun _ _ h => answersExport h⟩

end

/-- A renderer that refuses everything in a JSON list. -/
def refusesInList : Renderer := fun _ => .answered 400 ⟨[0x5B, 0x31, 0x5D]⟩

/-- A request for an export of a single node. -/
def exportOfNode : Request where
  method := "POST"
  path := "/api/export"
  body := some "\x7b\"code\": \"A\"\x7d"

/-- A service before its first request. -/
def waiting : App :=
  ⟨.start .empty (some 300) .start, .first, .empty⟩

theorem isMisread_refusesInList (order : ExportOrder) : (refusesInList order).IsMisread := by
  have hvalue : (Http.Bytes.mk [0x5B, 0x31, 0x5D]).value = .ok (.array [.ofNat 1]) := by rfl
  exact .noObject (by decide) hvalue nofun

/-- The list is no object, so that neither kind of error is reported, and the request is answered with a
breakdown. -/
theorem exports_end_refusesInList :
    Export.promised refusesInList "A" .png = .error .failedService ∧
      Export.outcome refusesInList "A" .png = .error .unforeseen ∧
      (waiting.handle refusesInList exportOfNode).answer = .broken := by
  have hsendable : ExportOrder.IsSendable ⟨"A", .png⟩ := LawfulHttpClient.refusal?_of_isWhole _ (by decide)
  have hblank : ¬Export.IsBlank "A" := by decide
  have hmisread := isMisread_refusesInList ⟨"A", .png⟩
  have hasks : Request.Exports exportOfNode ⟨.png, some "A"⟩ := by
    refine ⟨by decide +kernel, ?_⟩
    rfl
  obtain ⟨hends, hanswers⟩ := exports_end waiting refusesInList
  refine ⟨by decide, (hends "A" .png).unforeseen_iff.mpr ⟨hblank, hsendable, hmisread⟩, ?_⟩
  exact (hanswers exportOfNode _ hasks).lost ⟨hblank, hsendable, .inl hmisread⟩

end App

end Flowchart.Server
