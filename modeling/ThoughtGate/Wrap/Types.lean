import ThoughtGate.Base.Document
import ThoughtGate.Gate.Evaluator
import ThoughtGate.Lib.Disk

/-!
# The configuration files of agents

The types of `wrap/config_adapter/mod.rs`, and the files that a run works on. The names that are derived from a config
file's name (`with_extension("tmp")`, the suffixes of the backup and the lock file) are constructors of `Path`: they are
names of their own, as they are for every config file that an adapter discovers.

A file's text is what was found, or what `to_string_pretty` has made of a value, and then it reads as this value. An
object that `serde_json` has decoded has distinct keys (`AgentConfig`).
-/

namespace ThoughtGate

namespace Wrap

/-- `AgentType`. -/
inductive AgentType where
  | claudeDesktop
  | claudeCode
  | cursor
  | vsCode
  | windsurf
  | zed
  | custom
deriving DecidableEq

/-- `McpServerEntry`. -/
structure McpServerEntry where
  id : String
  command : String
  args : List String
  env : Option (List (String × String))
  enabled : Bool
deriving DecidableEq

/-- `ShimOptions`, without the server id, which a rewrite sets for each server. -/
structure ShimOptions where
  governanceEndpoint : String
  profile : Profile
  configPath : Option String

/-- The name of a file. -/
inductive Path where
  | file (name : String)
  | backup (of : Path)
  | temp (of : Path)
  | lock (of : Path)
deriving DecidableEq

/-- `ConfigError`. -/
inductive ConfigError where
  | notFound (path : Path)
  | parse (reason : String)
  | write (reason : String)
  | locked
  | alreadyManaged
  | noServers
  | undefinedEnvVar (name : String)
  | io (reason : String)
deriving DecidableEq

/-- A value that was decoded, or made from decoded ones. -/
abbrev AgentConfig := { v : Value // v.Keyed }

/-- The text of a file. -/
inductive Text where
  | found (bytes : ByteArray)
  | printed (config : AgentConfig)

/-- `read_to_string` and `serde_json::from_str` of bytes. -/
class ConfigText where
  parse : ByteArray → Except ConfigError AgentConfig

/-- The process that wraps: its directory, its environment, the path of the shim. -/
structure Setting where
  cwd : Option String
  var : String → Option String
  shimBinary : String

end Wrap

end ThoughtGate
