import ThoughtGate.Approval.Types
import ThoughtGate.Base.Text

/-!
# The Slack adapter

`post_approval_request` and `handle_rate_limit` of `governance/approval/slack.rs`, and the intervals that `from_env` reads for
the adapter and for the scheduler. A duration that comes from outside is any number of seconds of a `u64`, and it meets an
addition to the clock: the adapter adds the first interval itself, and `Instant + Duration` panics where `i64` seconds end.
-/

namespace ThoughtGate

/-- `std::env::var(name).ok().and_then(|s| s.parse().ok())` with seconds, or a default. -/
def secsFromEnv (env : String → Option String) (name : String) (default : Duration) : Duration :=
  (((env name).bind Text.parseUsize).map Duration.fromSecs).getD default

/-- `PollingConfig::from_env`. -/
def PollingConfig.fromEnv (env : String → Option String) : PollingConfig where
  baseInterval := secsFromEnv env "THOUGHTGATE_APPROVAL_POLL_INTERVAL_SECS" (Duration.fromSecs 5)
  maxInterval := secsFromEnv env "THOUGHTGATE_APPROVAL_POLL_MAX_INTERVAL_SECS" (Duration.fromSecs 30)
  maxConcurrent := ((env "THOUGHTGATE_MAX_CONCURRENT_POLLS").bind Text.parseUsize).getD 100
  approvalValidFor := Duration.fromSecs 60

/-- `SlackConfig`. -/
structure SlackConfig where
  botToken : String
  channel : String
  approveReaction : String
  rejectReaction : String
  apiTimeout : Duration
  initialPollInterval : Duration

/-- `SlackConfig::from_env`. -/
def SlackConfig.fromEnv (env : String → Option String) : Except AdapterError SlackConfig :=
  match env "THOUGHTGATE_SLACK_BOT_TOKEN" with
  | none => .error .invalidToken
  | some botToken => .ok {
      botToken
      channel := (env "THOUGHTGATE_SLACK_CHANNEL").getD "#approvals"
      approveReaction := (env "THOUGHTGATE_SLACK_APPROVE_REACTION").getD "+1"
      rejectReaction := (env "THOUGHTGATE_SLACK_REJECT_REACTION").getD "-1"
      apiTimeout := Duration.fromSecs 10
      initialPollInterval := secsFromEnv env "THOUGHTGATE_APPROVAL_POLL_INTERVAL_SECS" (Duration.fromSecs 5) }

/-- The adapter's first interval is the scheduler's base interval, as it should be. -/
theorem SlackConfig.initialPollInterval_fromEnv {env : String → Option String} {slack : SlackConfig}
    (h : SlackConfig.fromEnv env = .ok slack) : slack.initialPollInterval = (PollingConfig.fromEnv env).baseInterval := by
  unfold SlackConfig.fromEnv at h
  split at h
  · cases h
  · cases h
    rfl

/-- What comes back for a request. A header is there as a text if it is visible ASCII. -/
inductive HttpAnswer (β : Type) where
  | failed (reason : String) (retriable : Bool)
  | tooManyRequests (retryAfter : Option String)
  | unreadable (reason : String)
  | body (b : β)

/-- `SlackPostMessageResponse`. -/
structure SlackPostMessageResponse where
  ok : Bool
  error : Option String
  ts : Option String
  channel : Option String

namespace SlackAdapter

/-- `handle_rate_limit`. -/
def handleRateLimit (retryAfter : Option String) : AdapterError :=
  .rateLimited (Duration.fromSecs ((retryAfter.bind Text.parseUsize).getD 60))

/-- `map_slack_error`. -/
def mapSlackError (error channel : String) (ts : Option String) : AdapterError :=
  match error with
  | "channel_not_found" => .channelNotFound channel
  | "invalid_auth" | "account_inactive" | "token_revoked" | "not_authed" => .invalidToken
  | "message_not_found" => .messageNotFound (ts.getD "unknown")
  | "ratelimited" => .rateLimited (Duration.fromSecs 60)
  | _ => .postFailed error false

/-- The end of `post_approval_request`: the reference of a posted message; `none` where the addition panics. -/
def reference (config : SlackConfig) (request : ApprovalRequest) (now : Instant) (postedAt : DateTime) (ts channel : String) :
    Option ApprovalReference :=
  (now.checkedAdd config.initialPollInterval).map fun nextPollAt => {
    taskId := request.taskId
    externalId := ts
    channel
    postedAt
    nextPollAt
    pollCount := 0 }

/-- `post_approval_request`, for what comes back for the message; `none` where it panics. -/
def postApprovalRequest (config : SlackConfig) (request : ApprovalRequest) (now : Instant) (postedAt : DateTime) :
    HttpAnswer SlackPostMessageResponse → Option (Except AdapterError ApprovalReference)
  | .failed reason retriable => some (.error (.postFailed reason retriable))
  | .tooManyRequests retryAfter => some (.error (handleRateLimit retryAfter))
  | .unreadable reason => some (.error (.postFailed ("Failed to parse Slack response: " ++ reason) false))
  | .body b =>
    if b.ok then
      match b.ts, b.channel with
      | some ts, some channel => (reference config request now postedAt ts channel).map .ok
      | some _, none => some (.error (.postFailed "No channel in response" false))
      | none, _ => some (.error (.postFailed "No timestamp in response" false))
    else some (.error (mapSlackError (b.error.getD "unknown") config.channel none))

/-- A post panics only where the first interval does not fit, and the reference that it returns is of its task. -/
theorem postApprovalRequest_cases (config : SlackConfig) (request : ApprovalRequest) (now : Instant) (postedAt : DateTime)
    (answer : HttpAnswer SlackPostMessageResponse) :
    (postApprovalRequest config request now postedAt answer = none ∧ now.checkedAdd config.initialPollInterval = none) ∨
    ∃ posted, postApprovalRequest config request now postedAt answer = some posted ∧
      ∀ r, posted = .ok r → r.taskId = request.taskId := by
  cases answer with
  | failed reason retriable => exact .inr ⟨_, rfl, by simp⟩
  | tooManyRequests retryAfter => exact .inr ⟨_, rfl, by simp⟩
  | unreadable reason => exact .inr ⟨_, rfl, by simp⟩
  | body b =>
    obtain ⟨ok, error, ts, channel⟩ := b
    cases ok with
    | false => exact .inr ⟨_, rfl, by simp⟩
    | true =>
      cases ts with
      | none => exact .inr ⟨_, rfl, by simp⟩
      | some ts =>
        cases channel with
        | none => exact .inr ⟨_, rfl, by simp⟩
        | some channel =>
          have hpost : postApprovalRequest config request now postedAt (.body ⟨true, error, some ts, some channel⟩) =
              (reference config request now postedAt ts channel).map .ok := rfl
          rw [hpost]
          cases href : reference config request now postedAt ts channel with
          | none => exact .inl ⟨rfl, Option.map_eq_none_iff.mp href⟩
          | some r =>
            obtain ⟨nextPollAt, -, rfl⟩ := Option.map_eq_some_iff.mp href
            refine .inr ⟨_, rfl, fun r hr => ?_⟩
            cases hr
            rfl

end SlackAdapter

end ThoughtGate
