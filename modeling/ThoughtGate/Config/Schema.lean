import ThoughtGate.Base.Time
import ThoughtGate.Task.Types

/-!
# The configuration

`config/schema.rs`: sources with what they expose (Gate 1), the ordered governance rules (Gate 2) and the approval
workflows (Gate 4). Patterns are compiled and matched by the `glob` crate, a parameter (`Glob`); a configuration may or
may not carry its patterns in compiled form.
-/

namespace ThoughtGate

/-- `glob::Pattern`. -/
class Glob where
  Pattern : Type
  compile : String → Except String Pattern
  isMatch : Pattern → String → Bool

/-- Patterns without wildcards, and the one that matches everything. -/
@[reducible] def Sample.glob : Glob where
  Pattern := String
  compile := .ok
  isMatch pattern name := pattern == "*" || pattern == name

inductive Action where
  | forward
  | approve
  | deny
  | policy
deriving DecidableEq

inductive SourceFilter where
  | single (id : String)
  | multiple (ids : List String)
deriving DecidableEq

def SourceFilter.covers (sourceId : String) : SourceFilter → Bool
  | .single id => id == sourceId
  | .multiple ids => ids.any (· == sourceId)

/-- `MatchResult`. -/
structure MatchResult where
  action : Action
  policyId : Option String
  approvalWorkflow : Option String
  matchedRule : Option String
deriving DecidableEq

/-- `HumanWorkflow`, without its destination. -/
structure HumanWorkflow where
  timeout : Option Duration := none
  onTimeout : Option TimeoutAction := none
  blockingTimeout : Option Duration := none
  redactFields : Option (List String) := none

namespace HumanWorkflow

def timeoutOrDefault (w : HumanWorkflow) : Duration := w.timeout.getD (Duration.fromSecs 600)

def onTimeoutOrDefault (w : HumanWorkflow) : TimeoutAction := w.onTimeout.getD .deny

def blockingTimeoutOrDefault (w : HumanWorkflow) : Duration := (w.blockingTimeout.or w.timeout).getD (Duration.fromSecs 300)

end HumanWorkflow

variable [Glob]

/-- A pattern as text, matched now; a text that does not compile matches nothing. -/
def matchesText (pattern name : String) : Bool :=
  match Glob.compile pattern with
  | .ok p => Glob.isMatch p name
  | .error _ => false

/-- `ExposeConfig`. -/
inductive ExposeConfig where
  | all
  | allowlist (tools : List String) (compiledTools : List Glob.Pattern)
  | blocklist (tools : List String) (compiledTools : List Glob.Pattern)

namespace ExposeConfig

/-- One of the patterns matches: the compiled ones, if there are any. -/
def listed (tools : List String) (compiledTools : List Glob.Pattern) (name : String) : Bool :=
  if !compiledTools.isEmpty then compiledTools.any fun p => Glob.isMatch p name
  else tools.any fun pattern => matchesText pattern name

/-- `is_visible`. -/
def isVisible (name : String) : ExposeConfig → Bool
  | .all => true
  | .allowlist tools compiledTools => listed tools compiledTools name
  | .blocklist tools compiledTools => !listed tools compiledTools name

end ExposeConfig

/-- `Source::Mcp`: the fields that are read at run time. -/
structure Source where
  id : String
  exposed : Option ExposeConfig := none
  enabled : Bool := true

def Source.expose (s : Source) : ExposeConfig := s.exposed.getD .all

structure Rule where
  pattern : String
  action : Action
  source : Option SourceFilter := none
  policyId : Option String := none
  approval : Option String := none
  compiledPattern : Option Glob.Pattern := none

/-- The rule is for this source and this name. -/
def Rule.applies (rule : Rule) (toolName sourceId : String) : Bool :=
  (rule.source.all fun filter => filter.covers sourceId) &&
    match rule.compiledPattern with
    | some p => Glob.isMatch p toolName
    | none => matchesText rule.pattern toolName

structure Governance where
  defaultAction : Action
  rules : List Rule

/-- `Governance::evaluate`: the first rule that applies, or the default. -/
def Governance.evaluate (g : Governance) (toolName sourceId : String) : MatchResult :=
  match g.rules.find? fun rule => rule.applies toolName sourceId with
  | some rule => ⟨rule.action, rule.policyId, rule.approval, some rule.pattern⟩
  | none => ⟨g.defaultAction, none, none, none⟩

structure Config where
  sources : List Source
  governance : Governance
  approval : Option (List (String × HumanWorkflow)) := none

namespace Config

def getSource (c : Config) (id : String) : Option Source := c.sources.find? fun s => s.id == id

def getWorkflow (c : Config) (name : String) : Option HumanWorkflow := do
  let workflows ← c.approval
  (workflows.find? fun w => w.1 == name).map (·.2)

end Config

end ThoughtGate
