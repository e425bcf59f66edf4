-- The one-line summary of a channel for those who look for a fault: what it
-- is called, and what ended either direction.
import ProcessTree.Channel.Session
import ProcessTree.Error.Label

namespace ProcessTree

/-- A named record with its fields in braces. -/
def summaryRecord (name : String) (fields : List (String × String)) : String :=
  name ++ " \x7b " ++ String.intercalate ", " (fields.map fun (key, value) => key ++ ": " ++ value)
    ++ " \x7d"

/-- A value that may be missing. -/
def summaryOption {α : Type} (show_ : α → String) : Option α → String
  | none => "None"
  | some a => "Some(" ++ show_ a ++ ")"

/-- The class of failures that an error number belongs to. -/
def Errno.className (e : Errno) : String :=
  match e.number with
  | 1 | 13 => "PermissionDenied"
  | 2 => "NotFound"
  | 4 => "Interrupted"
  | 7 => "ArgumentListTooLong"
  | 11 => "WouldBlock"
  | 12 => "OutOfMemory"
  | 16 => "ResourceBusy"
  | 17 => "AlreadyExists"
  | 18 => "CrossesDevices"
  | 20 => "NotADirectory"
  | 21 => "IsADirectory"
  | 22 => "InvalidInput"
  | 26 => "ExecutableFileBusy"
  | 27 => "FileTooLarge"
  | 28 => "StorageFull"
  | 29 => "NotSeekable"
  | 30 => "ReadOnlyFilesystem"
  | 31 => "TooManyLinks"
  | 32 => "BrokenPipe"
  | 35 => "Deadlock"
  | 36 => "InvalidFilename"
  | 38 | 95 => "Unsupported"
  | 39 => "DirectoryNotEmpty"
  | 40 => "FilesystemLoop"
  | 98 => "AddrInUse"
  | 99 => "AddrNotAvailable"
  | 100 => "NetworkDown"
  | 101 => "NetworkUnreachable"
  | 103 => "ConnectionAborted"
  | 104 => "ConnectionReset"
  | 107 => "NotConnected"
  | 110 => "TimedOut"
  | 111 => "ConnectionRefused"
  | 113 => "HostUnreachable"
  | 115 => "InProgress"
  | 116 => "StaleNetworkFileHandle"
  | 122 => "QuotaExceeded"
  | _ => "Uncategorized"

/-- The summary of a failure of input or output. -/
def IoFailure.summary : IoFailure → String
  | .system errno => summaryRecord "Os" [
      ("code", toString errno.number), ("kind", errno.className),
      ("message", Quoted.ofText errno.systemText)]
  | .told text => summaryRecord "Custom" [("kind", "Other"), ("error", Quoted.ofText text)]

/-- The parts of a channel error that its summary names. -/
def ChannelError.parts : ChannelError → List (String × String)
  | .unknownMessageType registry kind =>
    [("registry", Quoted.ofText registry), ("kind", Quoted.ofText kind)]
  | .unknownTag registry tag => [("registry", Quoted.ofText registry), ("tag", Nat.repr tag.toNat)]
  | .malformed kind reason | .unencodable kind reason =>
    [("kind", Quoted.ofText kind), ("reason", Quoted.ofText reason)]
  | .payloadTooLarge _ | .streamClosed | .channelClosed | .io _ => []

/-- The summary of a channel error. -/
def ChannelError.summary (e : ChannelError) : String :=
  match e with
  | .payloadTooLarge length => e.label ++ "(" ++ Nat.repr length ++ ")"
  | .io failure => e.label ++ "(" ++ failure.summary ++ ")"
  | .streamClosed | .channelClosed => e.label
  | _ => summaryRecord e.label e.parts

/-- The summary of a channel. -/
def Session.summary {Out In : Type} (s : Session Out In) : String :=
  "Channel \x7b outbound: " ++ Quoted.ofText s.outbound.registry.name ++
    ", send_error: " ++ summaryOption ChannelError.summary s.outbound.terminal ++
    ", recv_error: " ++ summaryOption ChannelError.summary s.inbound.terminal ++ ", .. \x7d"

end ProcessTree
