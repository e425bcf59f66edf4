-- The messages of a process tree: what the root tells the processes it
-- supervises, what a worker answers, and how each is written as a payload. A
-- payload is a MessagePack map with named fields, so unknown fields are passed
-- over and a start request without an identity gets the default one.
import ProcessTree.Error
import ProcessTree.MessagePack.Shape

namespace ProcessTree

/-! ## What messages carry -/

/-- The identity that a job runs under, relative to its worker. -/
inductive JobIdentity where
  /-- A user namespace of its own, its root mapped onto the worker's root. -/
  | mapRoot
  /-- A user namespace of its own without any mapping. -/
  | unmapped
  /-- The worker's own user namespace. -/
  | shared
  deriving DecidableEq, Repr

namespace JobIdentity

instance : Inhabited JobIdentity := ⟨.mapRoot⟩

/-- All identities. -/
def all : List JobIdentity := [.mapRoot, .unmapped, .shared]

/-- The name of an identity. -/
def name : JobIdentity → String
  | .mapRoot => "map-root"
  | .unmapped => "unmapped"
  | .shared => "shared"

/-- The name of an identity as a title. -/
def title : JobIdentity → String
  | .mapRoot => "MapRoot"
  | .unmapped => "Unmapped"
  | .shared => "Shared"

/-- The identity of a name. -/
def ofName? (name : String) : Option JobIdentity := all.find? (·.name == name)

/-- The complaint about a name that no identity has. -/
def unknown (name : String) : String := "unknown job identity " ++ Quoted.ofText name

end JobIdentity

namespace FdPassing

/-- All ways to pass descriptors. -/
def all : List FdPassing := [.fixed, .numbered]

/-- The name of a way to pass descriptors. -/
def name : FdPassing → String
  | .fixed => "fixed"
  | .numbered => "numbered"

/-- The way to pass descriptors of a name. -/
def ofName? (name : String) : Option FdPassing := all.find? (·.name == name)

end FdPassing

/-- Asks the receiver to assume root in its user namespace. -/
structure Begin where
  /-- The process that asks. -/
  parent : Int32
  deriving DecidableEq, Repr, Inhabited

/-- Asks a worker to start a job. -/
structure Start where
  identity : JobIdentity
  deriving DecidableEq, Repr, Inhabited

/-- Asks the receiver to end. -/
structure Quit where
  deriving DecidableEq, Repr, Inhabited

/-- A worker's answer to a start request: the descriptors of the job's channel and the job's
process number, all as the worker sees them. -/
structure StartResult where
  readFd : Int32
  writeFd : Int32
  pid : Int32
  deriving DecidableEq, Repr, Inhabited

/-! ## Written forms -/

section Written

open MessagePack

/-- A choice among named things, written as its name. -/
def chosen? {α : Type} (all : List α) (name : α → String) (value : Value) : Option α :=
  (value.choice? (all.map name)).bind fun place => all[place]?

instance : Coded JobIdentity where
  toValue? identity := some (.ofText identity.name)
  ofValue? := chosen? JobIdentity.all JobIdentity.name

instance : Coded FdPassing where
  toValue? passing := some (.ofText passing.name)
  ofValue? := chosen? FdPassing.all FdPassing.name

instance : Coded Begin where
  toValue? m := some (.ofFields [("parent", .ofInt m.parent.toInt)])
  ofValue? v :=
    match v.fields? ["parent"] with
    | some [some parent] => parent.int32?.map .mk
    | _ => none

instance : Coded Start where
  toValue? m := (Coded.toValue? m.identity).map fun identity => .ofFields [("identity", identity)]
  ofValue? v :=
    match v.fields? ["identity"] with
    | some [none] => some ⟨default⟩
    | some [some identity] => (Coded.ofValue? identity).map .mk
    | _ => none

instance : Coded Quit where
  toValue? _ := some (.ofFields [])
  ofValue? v :=
    match v.fields? [] with
    | some [] => some ⟨⟩
    | _ => none

instance : Coded StartResult where
  toValue? m := some (.ofFields [
    ("read_fd", .ofInt m.readFd.toInt),
    ("write_fd", .ofInt m.writeFd.toInt),
    ("pid", .ofInt m.pid.toInt)])
  ofValue? v :=
    match v.fields? ["read_fd", "write_fd", "pid"] with
    | some [some readFd, some writeFd, some pid] =>
      match readFd.int32?, writeFd.int32?, pid.int32? with
      | some readFd, some writeFd, some pid => some ⟨readFd, writeFd, pid⟩
      | _, _, _ => none
    | _ => none

end Written

/-! ## Message sets -/

/-- The kinds of messages. -/
def Kind.begin : String := "begin"
def Kind.start : String := "start"
def Kind.quit : String := "quit"
def Kind.startResult : String := "start_result"

/-- Why a body cannot be sent. -/
def unwritable : String := "value has no written form"

/-- Why a payload cannot be received. -/
def unreadable : String := "payload does not read as this kind of message"

/-- The payload of a body that is sent as `kind`. -/
def packAs {α : Type} [MessagePack.Coded α] (kind : String) (body : α) :
    Except ChannelError Bytes :=
  match MessagePack.pack? body with
  | some payload => .ok payload
  | none => .error (.unencodable kind unwritable)

/-- The body in a payload that was received as `kind`. -/
def unpackAs {α : Type} [MessagePack.Coded α] (kind : String) (payload : Bytes) :
    Except ChannelError α :=
  match MessagePack.unpack? payload with
  | some body => .ok body
  | none => .error (.malformed kind unreadable)

/-- The error about a kind that a registry knows and the receiving set of messages does not. -/
def noDecoder (kind : String) : ChannelError :=
  .malformed kind "registered kind has no decoder in this direction"

/-- A closed set of messages that one direction of a channel carries. -/
class Message (M : Type) where
  /-- The kind of a message, which registries know it by. -/
  kind : M → String
  encode : M → Except ChannelError Bytes
  /-- Reads a payload whose tag stands for `kind`. -/
  decode : (kind : String) → Bytes → Except ChannelError M

/-- What a root sends. -/
inductive ControlMessage where
  | begin (body : Begin)
  | start (body : Start)
  | quit
  deriving DecidableEq, Repr, Inhabited

instance : Message ControlMessage where
  kind
    | .begin _ => Kind.begin
    | .start _ => Kind.start
    | .quit => Kind.quit
  encode
    | .begin body => packAs Kind.begin body
    | .start body => packAs Kind.start body
    | .quit => packAs Kind.quit (⟨⟩ : Quit)
  decode kind payload :=
    if kind = Kind.begin then (unpackAs kind payload).map .begin
    else if kind = Kind.start then (unpackAs kind payload).map .start
    else if kind = Kind.quit then (unpackAs kind payload).map fun (_ : Quit) => .quit
    else .error (noDecoder kind)

/-- What a worker sends back. -/
inductive ReplyMessage where
  | startResult (body : StartResult)
  deriving DecidableEq, Repr, Inhabited

instance : Message ReplyMessage where
  kind
    | .startResult _ => Kind.startResult
  encode
    | .startResult body => packAs Kind.startResult body
  decode kind payload :=
    if kind = Kind.startResult then (unpackAs kind payload).map .startResult
    else .error (noDecoder kind)

/-- What a job or a zygote sends back: nothing. -/
inductive JobReply where
  deriving DecidableEq, Repr

instance : Message JobReply where
  kind := nofun
  encode := nofun
  decode kind _ := .error (noDecoder kind)

end ProcessTree
