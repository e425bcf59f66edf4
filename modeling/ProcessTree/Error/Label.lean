-- Labels of errors: one word for each cause, for those who sort errors rather
-- than read them. The label of a wrapped error follows that of its wrapper,
-- after a dot.
import ProcessTree.Error

namespace ProcessTree

/-- The label of a channel error. -/
def ChannelError.label : ChannelError → String
  | .unknownMessageType .. => "UnknownMessageType"
  | .unknownTag .. => "UnknownTag"
  | .malformed .. => "Malformed"
  | .unencodable .. => "Encode"
  | .payloadTooLarge _ => "PayloadTooLarge"
  | .streamClosed => "StreamClosed"
  | .channelClosed => "ChannelClosed"
  | .io _ => "Io"

/-- The label of a registry error. -/
def RegistryError.label : RegistryError → String
  | .duplicateTag .. => "DuplicateTag"
  | .duplicateKind .. => "DuplicateKind"

/-- The label of a configuration error. -/
def ConfigError.label : ConfigError → String
  | .invalidValue .. => "InvalidValue"
  | .incomplete .. => "Incomplete"

/-- The label of a process error. -/
def ProcessError.label : ProcessError → String
  | .spawnFailed .. => "SpawnFailed"
  | .wait _ => "Wait"
  | .monitorLost => "MonitorLost"
  | .deadlineExceeded => "DeadlineExceeded"
  | .signal _ => "Signal"
  | .channel e => "Channel." ++ e.label

/-- The label of a broker error. -/
def BrokerError.label : BrokerError → String
  | .fdTransferFailed .. => "FdTransferFailed"

/-- The label of an id map error. -/
def IdMapError.label : IdMapError → String
  | .noTool _ => "NoTool"
  | .toolFailed .. => "ToolFailed"
  | .write .. => "Write"
  | .exec .. => "Exec"

/-- The label of a role's error. -/
def ReentryError.label : ReentryError → String
  | .invocation _ => "Invocation"
  | .inherit .. => "Inherit"
  | .unexpectedMessage .. => "UnexpectedMessage"
  | .privilege _ => "Privilege"
  | .channel e => "Channel." ++ e.label
  | .process e => "Process." ++ e.label
  | .registry e => "Registry." ++ e.label
  | .config e => "Config." ++ e.label
  | .io _ => "Io"

end ProcessTree
