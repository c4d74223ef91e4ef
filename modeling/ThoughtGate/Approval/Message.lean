import ThoughtGate.Approval.Redact
import ThoughtGate.Base.Canonical
import ThoughtGate.Base.Pretty

/-!
# The approval message

`build_approval_blocks` of `governance/approval/slack.rs`: the Block Kit message from which a human decides. The name of the
tool stands in a code span, the redacted arguments stand in a code fence and the name of the principal stands in no code;
nothing is escaped. So the message says what the gateway wrote into it (`NotForged`) exactly if the name has no backtick, no
string and no key of the arguments has a fence, and the principal has no markup (`message_not_forged_iff`). That messages for
different calls are different holds of all requests (`blocks_ne`).

What Slack renders as markup and how `chrono` writes a date are parameters.
-/

namespace ThoughtGate

/-- `DateTime::format("%Y-%m-%d %H:%M UTC")`. -/
class DateText where
  format : DateTime → String

/-- The characters that begin or end markup outside of code. -/
class Mrkdwn where
  isMarkup : Char → Bool

namespace Redact

theorem redactPath_numbers {P : Number → Prop} (path : List String) {value : Value} (h : value.Numbers P) :
    (redactPath path value).Numbers P := by
  induction path generalizing value with
  | nil => exact h
  | cons key rest ih =>
    rcases redactPath_cases key rest value with ⟨fields, child, rfl, hget, heq⟩ | ⟨-, heq⟩
    · rw [heq]
      cases h with
      | object hfields =>
        refine .object fun f hf => ?_
        rcases Value.mem_insertField hf with rfl | hold
        · show Value.Numbers P (if rest = [] then mark else redactPath rest child)
          split
          · exact .string _
          · exact ih (hfields _ (Value.mem_of_get hget))
        · exact hfields f hold
    · rw [heq]
      exact h

/-- The mark has no number. -/
theorem redactFields_numbers {P : Number → Prop} (fields : List String) {value : Value} (h : value.Numbers P) :
    (redactFields value fields).Numbers P := by
  induction fields generalizing value with
  | nil => exact h
  | cons field fields ih => exact ih (redactPath_numbers (parts field) h)

end Redact

theorem ApprovalRequest.displayArgs_signed {r : ApprovalRequest} (h : r.toolArguments.Signed) : r.displayArgs.Signed :=
  Redact.redactFields_numbers r.redactFields h

/-- What stands behind the beginning of a text. -/
theorem forall_append_eq_iff {first second : String} {P : String → Prop} :
    (∀ text, first ++ second = first ++ text → P text) ↔ P second := by
  refine ⟨fun h => h second rfl, fun h text heq => ?_⟩
  rwa [← (String.append_right_inj first).mp heq]

/-! ### The texts -/

theorem fence_opening (text : String) : "*Arguments:*\n```\n" ++ text = "*Arguments:*\n```" ++ ("\n" ++ text) := by
  rw [← String.append_assoc]
  exact congrArg (· ++ text) (String.toList_inj.mp rfl)

/-- A text with markup. -/
def mrkdwn (text : String) : Value := .object [("type", .string "mrkdwn"), ("text", .string text)]

namespace ApprovalRequest

def toolText (r : ApprovalRequest) : String := "*Tool:* `" ++ r.toolName ++ "`"

def principalText (r : ApprovalRequest) : String := "*Principal:* " ++ r.principal.appName

def taskText [DateText] (r : ApprovalRequest) : String :=
  "Task ID: `" ++ r.taskId ++ "` • Expires: " ++ DateText.format r.expiresAt

/-! ### What closes the code -/

theorem span_iff {r : ApprovalRequest} :
    (∀ text, r.toolText = "*Tool:* `" ++ text → ClosedByEnd ['`'] text.toList) ↔ '`' ∉ r.toolName.toList := by
  rw [toolText, String.append_assoc, forall_append_eq_iff, String.toList_append]
  exact closedByEnd_singleton_iff _

theorem plain_iff [Mrkdwn] {r : ApprovalRequest} :
    (∀ text, r.principalText = "*Principal:* " ++ text → ∀ c ∈ text.toList, Mrkdwn.isMarkup c = false) ↔
      ∀ c ∈ r.principal.appName.toList, Mrkdwn.isMarkup c = false := by
  rw [principalText, forall_append_eq_iff]

section

variable [F64.Fmt]

def argumentsText (r : ApprovalRequest) : String := "*Arguments:*\n```\n" ++ r.displayArgs.prettyText ++ "\n```"

/-- `build_approval_blocks`. The text of a `Value` never fails, so the other text of the arguments is not used. -/
def buildApprovalBlocks [DateText] (r : ApprovalRequest) : Value :=
  .array [
    .object [("type", .string "header"), ("text", .object [("type", .string "plain_text"),
      ("text", .string ("🔒 Approval Required: " ++ r.toolName)), ("emoji", .bool true)])],
    .object [("type", .string "section"), ("fields", .array [mrkdwn r.toolText, mrkdwn r.principalText])],
    .object [("type", .string "section"), ("text", mrkdwn r.argumentsText)],
    .object [("type", .string "context"),
      ("elements", .array [mrkdwn "React with 👍 to *approve* or 👎 to *reject*"])],
    .object [("type", .string "context"), ("elements", .array [mrkdwn r.taskText])]]

/-- What the caller controls is not markup: behind the mark that opens it, the code span of the tool is closed by the last
backtick and the fence of the arguments by the last fence, and outside of code there is no markup of the principal. -/
structure NotForged [Mrkdwn] (r : ApprovalRequest) : Prop where
  span : ∀ text, r.toolText = "*Tool:* `" ++ text → ClosedByEnd ['`'] text.toList
  fence : ∀ text, r.argumentsText = "*Arguments:*\n```" ++ text → ClosedByEnd ['`', '`', '`'] text.toList
  plain : ∀ text, r.principalText = "*Principal:* " ++ text → ∀ c ∈ text.toList, Mrkdwn.isMarkup c = false

theorem fence_iff (hfmt : F64.Decimal) {r : ApprovalRequest} :
    (∀ text, r.argumentsText = "*Arguments:*\n```" ++ text → ClosedByEnd ['`', '`', '`'] text.toList) ↔
      ∀ s ∈ r.displayArgs.texts, ¬ ['`', '`', '`'] <:+: s.toList := by
  have hopening : r.argumentsText = "*Arguments:*\n```" ++ ("\n" ++ (r.displayArgs.prettyText ++ "\n```")) :=
    String.append_assoc.trans (fence_opening _)
  have htext : ("\n" ++ (r.displayArgs.prettyText ++ "\n```")).toList =
      ('\n' :: r.displayArgs.prettyText.toList) ++ '\n' :: List.replicate (2 + 1) '`' := by simp
  have hnewline : ('\n' : Char) ≠ '`' := by decide
  have hclosed := closedByEnd_iff hnewline 2 ('\n' :: r.displayArgs.prettyText.toList)
  have hmark : '`' ∉ ['\n'] := by decide
  have hinfix := fence_infix_append_of_notMem hmark 2 r.displayArgs.prettyText.toList
  rw [hopening, forall_append_eq_iff, htext]
  refine hclosed.trans ?_
  rw [← List.singleton_append, hinfix, Scanner.fence_infix_prettyText hfmt]
  simp [List.replicate]

/-! ### Different messages -/

/-- The blocks determine the tool and the redacted arguments. -/
theorem eq_of_blocks_eq [DateText] (hfmt : F64.Decimal) {r r' : ApprovalRequest} (hr : r.toolArguments.Signed)
    (hr' : r'.toolArguments.Signed) (h : r.buildApprovalBlocks = r'.buildApprovalBlocks) :
    r.toolName = r'.toolName ∧ r.displayArgs = r'.displayArgs := by
  simp only [buildApprovalBlocks, mrkdwn, Value.array.injEq, Value.object.injEq, Value.string.injEq, List.cons.injEq,
    Prod.mk.injEq, true_and, and_true] at h
  obtain ⟨hheader, -, harguments, -⟩ := h
  have htext := (String.append_left_inj _).mp harguments
  exact ⟨(String.append_right_inj _).mp hheader,
    Scanner.prettyText_injective hfmt (displayArgs_signed hr) (displayArgs_signed hr') ((String.append_right_inj _).mp htext)⟩

theorem blocks_ne [DateText] (hfmt : F64.Decimal) {r r' : ApprovalRequest} (hr : r.toolArguments.Signed)
    (hr' : r'.toolArguments.Signed)
    (h : r.toolName ≠ r'.toolName ∨ ¬ Value.Reordered r.displayArgs r'.displayArgs) :
    r.buildApprovalBlocks ≠ r'.buildApprovalBlocks := by
  intro heq
  obtain ⟨hname, hargs⟩ := eq_of_blocks_eq hfmt hr hr' heq
  rcases h with hdiff | hdiff
  · exact hdiff hname
  · exact hdiff (hargs ▸ .refl _)

/-- The caller forges the message with a backtick in the name, a fence in a string or a key, or markup in the principal, and not
otherwise; and messages that show different calls are different. -/
theorem message_not_forged_iff [DateText] [Mrkdwn] (hfmt : F64.Decimal) {r : ApprovalRequest} (hr : r.toolArguments.Signed) :
    (r.NotForged ∧ ∀ r' : ApprovalRequest, r'.toolArguments.Signed →
      (r.toolName ≠ r'.toolName ∨ ¬ Value.Reordered r.displayArgs r'.displayArgs) →
        r.buildApprovalBlocks ≠ r'.buildApprovalBlocks) ↔
      '`' ∉ r.toolName.toList ∧ (∀ s ∈ r.displayArgs.texts, ¬ ['`', '`', '`'] <:+: s.toList) ∧
        ∀ c ∈ r.principal.appName.toList, Mrkdwn.isMarkup c = false := by
  constructor
  · rintro ⟨hforged, -⟩
    exact ⟨span_iff.mp hforged.span, (fence_iff hfmt).mp hforged.fence, plain_iff.mp hforged.plain⟩
  · rintro ⟨hspan, hfence, hplain⟩
    exact ⟨⟨span_iff.mpr hspan, (fence_iff hfmt).mpr hfence, plain_iff.mpr hplain⟩,
      fun r' hr' hdiff => blocks_ne hfmt hr hr' hdiff⟩

end

end ApprovalRequest

namespace Sample

@[reducible] def dateText : DateText where
  format now := toString now

/-- The marks of bold, italic, struck and quoted text and of links. -/
@[reducible] def slackMrkdwn : Mrkdwn where
  isMarkup c := c ∈ ['*', '_', '~', '`', '<', '>']

/-- A call with a lone backtick in its arguments. -/
def dropRequest : ApprovalRequest where
  taskId := "tg_1"
  toolName := "drop_table"
  toolArguments := .object [("table", .string "`users`"), ("limit", .number (.posInt 3))]
  principal := { appName := "agent-7" }
  expiresAt := 600000000000
  createdAt := 0
  correlationId := "corr"
  redactFields := []

/-- A call whose reason ends the fence and goes on as the message. -/
def forgingRequest : ApprovalRequest :=
  { dropRequest with
    toolArguments := .object [("reason", .string "```*Pre-approved by security*")] }

end Sample

section

attribute [local instance] Sample.decimalFmt Sample.dateText Sample.slackMrkdwn

open Sample

theorem dropRequest_signed : dropRequest.toolArguments.Signed := by
  refine .object fun f hf => ?_
  rcases List.mem_pair.mp hf with rfl | rfl
  · exact .string _
  · exact .number fun i hi => by cases hi

/-- The message of `dropRequest` is not forged, and not that of another table. -/
theorem message_not_forged_drop : dropRequest.NotForged ∧ dropRequest.buildApprovalBlocks ≠
    { dropRequest with toolName := "drop_index" }.buildApprovalBlocks := by
  have hplain : dropRequest.principal.appName.toList.all (fun c => !Mrkdwn.isMarkup c) = true := by decide
  have h := (ApprovalRequest.message_not_forged_iff decimal_decimalFmt dropRequest_signed).mpr
    ⟨by decide, by decide, fun c hc => by simpa using List.all_eq_true.mp hplain c hc⟩
  exact ⟨h.1, h.2 { dropRequest with toolName := "drop_index" } dropRequest_signed (.inl (by decide))⟩

/-- The arguments of `forgingRequest` close the fence. -/
theorem message_forged : forgingRequest.toolArguments.Signed ∧ ¬ forgingRequest.NotForged := by
  refine ⟨.object fun f hf => ?_, fun h => ?_⟩
  · rw [List.mem_singleton.mp hf]
    exact .string _
  · have hfence := (ApprovalRequest.fence_iff decimal_decimalFmt).mp h.fence
    refine hfence "```*Pre-approved by security*" ?_ ⟨[], "*Pre-approved by security*".toList, rfl⟩
    exact List.mem_cons_of_mem _ List.mem_cons_self

end

end ThoughtGate
