-- What can go wrong in a process tree: one type of causes per concern, and the
-- wording of each cause. `message` is the text of an error; `causes` are the
-- texts of the errors behind it, outermost first.
import ProcessTree.Errno
import ProcessTree.ExitState
import ProcessTree.Role
import ProcessTree.Text.Quoted

namespace ProcessTree

/-! ## Channels -/

/-- Errors of a channel. -/
inductive ChannelError where
  /-- No tag stands for this kind of message in the outbound direction. -/
  | unknownMessageType (registry kind : String)
  /-- No kind of message has this tag in the inbound direction. -/
  | unknownTag (registry : String) (tag : UInt8)
  /-- A payload does not read as a message of its kind. -/
  | malformed (kind reason : String)
  /-- A message has no written form. -/
  | unencodable (kind reason : String)
  /-- A payload is longer than a header can say. -/
  | payloadTooLarge (length : Nat)
  /-- The stream took no byte of a write. -/
  | streamClosed
  /-- The stream ended, or the channel was closed. -/
  | channelClosed
  | io (failure : IoFailure)
  deriving DecidableEq, Repr, Inhabited

/-- The text of a channel error. -/
def ChannelError.message : ChannelError → String
  | .unknownMessageType registry kind =>
    "unknown message type " ++ Quoted.ofText kind ++ " for the " ++ registry ++ " direction"
  | .unknownTag registry tag =>
    "unknown tag " ++ Nat.repr tag.toNat ++ " on the " ++ registry ++ " direction"
  | .malformed kind reason => "malformed " ++ kind ++ " message: " ++ reason
  | .unencodable kind reason => "failed to encode " ++ kind ++ " message: " ++ reason
  | .payloadTooLarge length => "payload of " ++ Nat.repr length ++ " bytes does not fit a frame"
  | .streamClosed => "stream closed while sending"
  | .channelClosed => "channel closed"
  | .io failure => "channel io error: " ++ failure.message

/-! ## Registries and configuration -/

/-- Errors of building a tag registry. -/
inductive RegistryError where
  | duplicateTag (registry : String) (tag : UInt8)
  | duplicateKind (registry kind : String)
  deriving DecidableEq, Repr, Inhabited

/-- The text of a registry error. -/
def RegistryError.message : RegistryError → String
  | .duplicateTag registry tag =>
    "tag " ++ Nat.repr tag.toNat ++ " is registered twice in " ++ registry
  | .duplicateKind registry kind =>
    "message kind " ++ Quoted.ofText kind ++ " is registered twice in " ++ registry

/-- Errors of reading the configuration from variables. -/
inductive ConfigError where
  | invalidValue (key value : String)
  /-- The first variable is set and the second, which belongs to it, is not. -/
  | incomplete (present missing : String)
  deriving DecidableEq, Repr, Inhabited

/-- The text of a configuration error. -/
def ConfigError.message : ConfigError → String
  | .invalidValue key value => "invalid value " ++ Quoted.ofText value ++ " for " ++ key
  | .incomplete present missing => present ++ " is set without " ++ missing

/-! ## Processes -/

/-- Errors of starting, watching and ending a process. -/
inductive ProcessError where
  | spawnFailed (role : Role) (reason : String)
  /-- The end of the process could not be observed. -/
  | wait (errno : Errno)
  | monitorLost
  | deadlineExceeded
  /-- A signal could not be sent. -/
  | signal (errno : Errno)
  | channel (error : ChannelError)
  deriving DecidableEq, Repr, Inhabited

/-- The text of a process error. -/
def ProcessError.message : ProcessError → String
  | .spawnFailed role reason => "failed to spawn the " ++ role.name ++ " process: " ++ reason
  | .wait errno => "failed to observe the process exit: " ++ errno.message
  | .monitorLost => "process monitor stopped before recording an exit"
  | .deadlineExceeded => "deadline exceeded"
  | .signal errno => "failed to signal the process: " ++ errno.message
  | .channel error => error.message

/-- Errors of copying a descriptor out of another process. -/
inductive BrokerError where
  | fdTransferFailed (pid number : Int) (errno : Errno)
  deriving DecidableEq, Repr, Inhabited

/-- The text of a broker error. -/
def BrokerError.message : BrokerError → String
  | .fdTransferFailed pid number errno =>
    "failed to transfer descriptor " ++ toString number ++ " from process " ++ toString pid ++
      ": " ++ errno.message

/-- The errors behind a broker error. -/
def BrokerError.causes : BrokerError → List String
  | .fdTransferFailed _ _ errno => [errno.message]

/-- Errors of writing the id maps of a process. -/
inductive IdMapError where
  | noTool (tool : String)
  | toolFailed (tool : String) (status : WaitStatus)
  | write (file : String) (failure : IoFailure)
  | exec (tool : String) (failure : IoFailure)
  deriving DecidableEq, Repr, Inhabited

/-- The text of an id map error. -/
def IdMapError.message : IdMapError → String
  | .noTool tool => tool ++ " is not installed or not on the search path"
  | .toolFailed tool status => tool ++ " exited with " ++ status.message
  | .write file failure => "failed to write " ++ file ++ ": " ++ failure.message
  | .exec tool failure => "failed to run " ++ tool ++ ": " ++ failure.message

/-- The errors behind an id map error. -/
def IdMapError.causes : IdMapError → List String
  | .noTool _ | .toolFailed .. => []
  | .write _ failure | .exec _ failure => [failure.message]

/-! ## Roles -/

/-- Errors that end a re-entered role. -/
inductive ReentryError where
  | invocation (text : String)
  | inherit (direction : String) (fd : Int) (errno : Errno)
  | unexpectedMessage (role : Role) (kind : String)
  | privilege (errno : Errno)
  | channel (error : ChannelError)
  | process (error : ProcessError)
  | registry (error : RegistryError)
  | config (error : ConfigError)
  | io (failure : IoFailure)
  deriving DecidableEq, Repr, Inhabited

/-- The text of a role's error. -/
def ReentryError.message : ReentryError → String
  | .invocation text => "invalid invocation: " ++ text
  | .inherit direction fd errno =>
    "failed to inherit the " ++ direction ++ " descriptor " ++ toString fd ++ ": " ++ errno.message
  | .unexpectedMessage role kind =>
    "unexpected " ++ kind ++ " message for the " ++ role.name ++ " role"
  | .privilege errno => "failed to assume root identity: " ++ errno.message
  | .channel error => error.message
  | .process error => error.message
  | .registry error => error.message
  | .config error => error.message
  | .io failure => "io error: " ++ failure.message

/-- The errors behind a role's error. -/
def ReentryError.causes : ReentryError → List String
  | .inherit _ _ errno => [errno.message]
  | .io failure => [failure.message]
  | _ => []

/-! ## The root -/

/-- Errors that reach the root of a tree. -/
inductive TreeError where
  | channel (error : ChannelError)
  | registry (error : RegistryError)
  | process (error : ProcessError)
  | broker (error : BrokerError)
  | reentry (error : ReentryError)
  | config (error : ConfigError)
  | unexpectedReply (text : String)
  /-- An earlier start request was cut off in the middle, so none can follow it. -/
  | workerOutOfStep
  | io (failure : IoFailure)
  | system (errno : Errno)
  deriving DecidableEq, Repr, Inhabited

/-- The text of a tree error. -/
def TreeError.message : TreeError → String
  | .channel error => error.message
  | .registry error => error.message
  | .process error => error.message
  | .broker error => error.message
  | .reentry error => error.message
  | .config error => "configuration error: " ++ error.message
  | .unexpectedReply text => "unexpected reply: " ++ text
  | .workerOutOfStep => "worker channel is out of step after an interrupted start request"
  | .io failure => "io error: " ++ failure.message
  | .system errno => "nix error: " ++ errno.message

/-- The errors behind a tree error. -/
def TreeError.causes : TreeError → List String
  | .broker error => error.causes
  | .reentry error => error.causes
  | .config error => [error.message]
  | .io failure => [failure.message]
  | .system errno => [errno.message]
  | _ => []

/-! ## Results behind one another

A row of parts comes to a value exactly if each of its parts does. -/

section Results

variable {ε α β : Type} {x : Except ε α} {b : β}

theorem bind_eq_ok_iff {f : α → Except ε β} : x >>= f = .ok b ↔ ∃ a, x = .ok a ∧ f a = .ok b := by
  cases x with
  | error e => simp [bind, Except.bind]
  | ok a => simp [bind, Except.bind]

theorem map_eq_ok_iff {f : α → β} : x.map f = .ok b ↔ ∃ a, x = .ok a ∧ f a = b := by
  cases x with
  | error e => simp [Except.map]
  | ok a => simp [Except.map]

end Results

end ProcessTree
