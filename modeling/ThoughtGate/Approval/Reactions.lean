import ThoughtGate.Approval.Polling

/-!
# Reading the reactions

`poll_for_decision` of `governance/approval/slack.rs` with what it calls: `check_reactions` looks for the two reactions of the
configuration, the one that approves first, and takes the first user of the one it finds; `get_user_display_name` finds a name
for that user, in a cache that is cut by a quarter when it is full, or at Slack. Where there is no name the id of the user
stands for it.

The lookup has an await of its own, so the poll is a program by itself here (`NamingPc`), which the scheduler's thread runs
in the middle of its own call (`SlackPc`). Of the thousand names in the cache any quarter may go, whatever the order of the map.
-/

namespace ThoughtGate

/-- `SlackReaction`; its count is not read. -/
structure SlackReaction where
  name : String
  users : List String
deriving DecidableEq

/-- `SlackMessage`. -/
structure SlackMessage where
  reactions : Option (List SlackReaction)
deriving DecidableEq

/-- `SlackReactionsGetResponse`. -/
structure SlackReactionsGetResponse where
  ok : Bool
  error : Option String
  message : Option SlackMessage
deriving DecidableEq

/-- `SlackUser`, with the display name of its profile. -/
structure SlackUser where
  id : String
  realName : Option String
  profile : Option (Option String)
deriving DecidableEq

/-- `SlackUserInfoResponse`. -/
structure SlackUserInfoResponse where
  ok : Bool
  error : Option String
  user : Option SlackUser
deriving DecidableEq

/-- What comes back for `users.info`. -/
inductive UserInfoAnswer where
  | failed (reason : String)
  | unreadable (reason : String)
  | body (b : SlackUserInfoResponse)
deriving DecidableEq

/-- A decision that `check_reactions` has found, with the user and the reaction. -/
structure Found where
  decision : PollDecision
  user : String
  emoji : String
deriving DecidableEq

namespace SlackAdapter

/-- The first user of the first reaction of that name. -/
def foundBy (reactions : List SlackReaction) (emoji : String) (decision : PollDecision) : Option Found :=
  (reactions.find? fun r => r.name = emoji).bind fun r => r.users.head?.map fun user => ⟨decision, user, r.name⟩

/-- `check_reactions`. -/
def checkReactions (config : SlackConfig) (reactions : Option (List SlackReaction)) : Option Found :=
  reactions.bind fun reactions =>
    (foundBy reactions config.approveReaction .approved).orElse fun _ =>
      foundBy reactions config.rejectReaction .rejected

/-- The name of a user in an answer: the display name unless it is empty, the real name, the id. -/
def shownName (u : SlackUser) : String :=
  (((u.profile.bind id).filter fun name => !name.isEmpty).orElse fun _ => u.realName).getD u.id

/-- The name that `get_user_display_name` takes from an answer, and whether it is cached. -/
def nameIn (userId : String) : UserInfoAnswer → Except AdapterError (String × Bool)
  | .failed reason => .error (.pollFailed ("Failed to fetch user info: " ++ reason) true)
  | .unreadable reason => .error (.pollFailed ("Failed to parse user info response: " ++ reason) true)
  | .body b => if b.ok then .ok ((b.user.map shownName).getD userId, true) else .ok (userId, false)

def maxUserCacheSize : Nat := 1000

/-- The first part of `poll_for_decision`: an error, no decision yet, or what was found. -/
def decisionIn (config : SlackConfig) (r : ApprovalReference) :
    HttpAnswer SlackReactionsGetResponse → Except AdapterError (Option Found)
  | .failed reason _ => .error (.pollFailed reason true)
  | .tooManyRequests retryAfter => .error (handleRateLimit retryAfter)
  | .unreadable reason => .error (.pollFailed ("Failed to parse reactions response: " ++ reason) true)
  | .body b =>
    if b.ok then .ok (checkReactions config (b.message.bind (·.reactions)))
    else .error (mapSlackError (b.error.getD "unknown") r.channel (some r.externalId))

/-! ### What a decision stands on -/

/-- The reactions show a decision: its reaction is there with that user, and a rejection counts only where nobody is listed
for the reaction that approves. -/
structure Shows (config : SlackConfig) (reactions : List SlackReaction) (f : Found) : Prop where
  emoji : f.emoji = if f.decision = .approved then config.approveReaction else config.rejectReaction
  listed : ∃ r ∈ reactions, r.name = f.emoji ∧ r.users.head? = some f.user
  notApproved : f.decision = .rejected → ∀ r, reactions.find? (fun r => r.name = config.approveReaction) = some r → r.users = []

theorem foundBy_eq_some_iff {reactions : List SlackReaction} {emoji : String} {decision : PollDecision} {f : Found} :
    foundBy reactions emoji decision = some f ↔
      ∃ r, reactions.find? (fun r => r.name = emoji) = some r ∧ r.users.head? = some f.user ∧ f.decision = decision ∧
        f.emoji = r.name := by
  constructor
  · intro h
    obtain ⟨r, hr, hfound⟩ := Option.bind_eq_some_iff.mp h
    obtain ⟨user, huser, rfl⟩ := Option.map_eq_some_iff.mp hfound
    exact ⟨r, hr, huser, rfl, rfl⟩
  · rintro ⟨r, hr, huser, rfl, hemoji⟩
    refine Option.bind_eq_some_iff.mpr ⟨r, hr, Option.map_eq_some_iff.mpr ⟨f.user, huser, ?_⟩⟩
    rw [← hemoji]

theorem foundBy_eq_none {reactions : List SlackReaction} {emoji : String} {decision : PollDecision}
    (h : foundBy reactions emoji decision = none) {r : SlackReaction}
    (hr : reactions.find? (fun r => r.name = emoji) = some r) : r.users = [] := by
  rw [foundBy, hr, Option.bind_some, Option.map_eq_none_iff] at h
  exact List.head?_eq_none_iff.mp h

theorem shows_of_foundBy {config : SlackConfig} {reactions : List SlackReaction} {emoji : String} {f : Found}
    (h : foundBy reactions emoji f.decision = some f)
    (hemoji : emoji = if f.decision = .approved then config.approveReaction else config.rejectReaction)
    (hfirst : f.decision = .rejected → foundBy reactions config.approveReaction .approved = none) :
    Shows config reactions f := by
  obtain ⟨r, hr, huser, -, hname⟩ := foundBy_eq_some_iff.mp h
  have hr' : r.name = emoji := by simpa using List.find?_some hr
  exact {
    emoji := hname.trans (hr'.trans hemoji)
    listed := ⟨r, List.mem_of_find?_eq_some hr, hname.symm, huser⟩
    notApproved := fun hrejected r' hr' => foundBy_eq_none (hfirst hrejected) hr' }

/-- What `check_reactions` finds, the reactions show. -/
theorem checkReactions_shows {config : SlackConfig} {reactions : Option (List SlackReaction)} {f : Found}
    (h : checkReactions config reactions = some f) : ∃ rs, reactions = some rs ∧ Shows config rs f := by
  obtain ⟨rs, rfl, hfound⟩ := Option.bind_eq_some_iff.mp h
  refine ⟨rs, rfl, ?_⟩
  cases happrove : foundBy rs config.approveReaction .approved with
  | some f' =>
    rw [happrove] at hfound
    cases hfound
    obtain ⟨-, -, -, hdecision, -⟩ := foundBy_eq_some_iff.mp happrove
    have hfound' : foundBy rs config.approveReaction f.decision = some f := by
      rw [hdecision]
      exact happrove
    refine shows_of_foundBy hfound' (by rw [hdecision]; rfl) ?_
    intro hrejected
    rw [hdecision] at hrejected
    cases hrejected
  | none =>
    rw [happrove] at hfound
    obtain ⟨-, -, -, hdecision, -⟩ := foundBy_eq_some_iff.mp hfound
    have hfound' : foundBy rs config.rejectReaction f.decision = some f := by
      rw [hdecision]
      exact hfound
    exact shows_of_foundBy hfound' (by rw [hdecision]; rfl) fun _ => happrove

/-- A decision is found only in a message that Slack has read. -/
theorem decisionIn_found {config : SlackConfig} {r : ApprovalReference} {answer : HttpAnswer SlackReactionsGetResponse}
    {f : Found} (h : decisionIn config r answer = .ok (some f)) :
    ∃ b message reactions, answer = .body b ∧ b.ok = true ∧ b.message = some message ∧ message.reactions = some reactions ∧
      Shows config reactions f := by
  cases answer with
  | failed | tooManyRequests | unreadable => cases h
  | body b =>
    simp only [decisionIn] at h
    split at h
    · rename_i hok
      obtain ⟨rs, hrs, hshows⟩ := checkReactions_shows (Except.ok.inj h)
      obtain ⟨message, hmessage, hreactions⟩ := Option.bind_eq_some_iff.mp hrs
      exact ⟨b, message, rs, rfl, hok, hmessage, hreactions, hshows⟩
    · cases h

end SlackAdapter

/-! ### The name of the user -/

/-- Where `get_user_display_name` stands. -/
inductive NamingPc where
  | looking
  | fetching
  | sizing (name : String)
  | evicting (name : String) (keys : List String)
  | named (name : String)
deriving DecidableEq

/-- What it takes in: an answer of `users.info`, the keys that the map gives first. -/
inductive NamingInput where
  | go
  | user (answer : UserInfoAnswer)
  | keys (keys : List String)
deriving DecidableEq

/-- One step of `get_user_display_name`; where it fails, its caller takes the id. -/
def NamingPc.next (userId : String) (cache : Table String String) : NamingPc → NamingInput →
    Option (Table String String × NamingPc)
  | .looking, .go =>
    match cache.lookup userId with
    | some name => some (cache, .named name)
    | none => some (cache, .fetching)
  | .fetching, .user answer =>
    match SlackAdapter.nameIn userId answer with
    | .error _ => some (cache, .named userId)
    | .ok (name, cached) => some (cache, if cached then .sizing name else .named name)
  | .sizing name, .keys keys =>
    let full := SlackAdapter.maxUserCacheSize ≤ cache.entries.length
    if keys ⊆ cache.keys ∧ keys.length = (if full then cache.entries.length / 4 else 0) then
      some (cache, .evicting name keys)
    else none
  | .evicting name [], .go => some (cache.insert userId name, .named name)
  | .evicting name (key :: keys), .go => some (cache.erase key, .evicting name keys)
  | _, _ => none

namespace NamingPc

/-- The name that was found, if one was, is good. -/
def Holds (N : String → Prop) : NamingPc → Prop
  | .looking | .fetching => True
  | .sizing name | .evicting name _ | .named name => N name

theorem Holds.mono {N M : String → Prop} {q : NamingPc} (h : q.Holds N) (hM : ∀ name, N name → M name) : q.Holds M := by
  cases q with
  | looking | fetching => trivial
  | sizing | evicting | named => exact hM _ h

/-- The cache stays good: a name comes out of it, or from an answer about the same user, and goes back under that user. -/
theorem next_holds {N : String → String → Prop} {userId : String} {cache cache' : Table String String} {q q' : NamingPc}
    {i : NamingInput} (h : q.next userId cache i = some (cache', q')) (hid : N userId userId)
    (hanswer : ∀ answer name cached, i = .user answer → SlackAdapter.nameIn userId answer = .ok (name, cached) → N userId name)
    (hcache : cache.All N) (hq : q.Holds (N userId)) : cache'.All N ∧ q'.Holds (N userId) := by
  unfold next at h
  split at h
  · split at h
    · rename_i name hname
      cases h
      exact ⟨hcache, hcache userId name hname⟩
    · cases h
      exact ⟨hcache, trivial⟩
  · rename_i answer
    split at h
    · cases h
      exact ⟨hcache, hid⟩
    · rename_i name cached hname
      have hgood := hanswer answer name cached rfl hname
      cases h
      refine ⟨hcache, ?_⟩
      split
      · exact hgood
      · exact hgood
  · obtain ⟨-, hsome⟩ := Option.ite_none_right_eq_some.mp h
    cases hsome
    exact ⟨hcache, hq⟩
  · cases h
    exact ⟨hcache.insert hq, hq⟩
  · cases h
    exact ⟨hcache.erase _, hq⟩
  · cases h

end NamingPc

end ThoughtGate
