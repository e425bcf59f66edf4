-- How a process was invoked: as the root, or again in one of the other roles.
import ProcessTree.Error
import ProcessTree.Text.OsText

namespace ProcessTree

/-- How a process was invoked. -/
inductive Invocation where
  | root
  | reentry (role : Role) (fds : ChannelFds)
  deriving DecidableEq, Repr, Inhabited

namespace Invocation

/-- The role of an invocation. -/
def role : Invocation → Role
  | .root => .root
  | .reentry role _ => role

/-- The greatest descriptor number. -/
def maxFd : Nat := 2147483647

/-- A descriptor argument: a hexadecimal numeral of at most 31 bits. -/
def readFd (arg : OsText) : Except ReentryError Int32 :=
  match arg.text?.bind fun text => Numeral.read? 16 maxFd text.toList with
  | some fd => .ok (Int32.ofNat fd)
  | none => .error (.invocation ("invalid descriptor argument " ++ arg.quoted))

/-- The descriptors named by the arguments after a role flag. -/
def readFds (role : Role) : List OsText → Except ReentryError ChannelFds
  | [] => .ok .fixed
  | [read, write] =>
    match readFd read with
    | .error e => .error e
    | .ok r =>
      match readFd write with
      | .error e => .error e
      | .ok w => .ok ⟨r, w⟩
  | args =>
    .error (.invocation (role.name ++ " expects no arguments or two descriptor numbers, got " ++
      Nat.repr args.length))

/-- The role that the first argument selects. -/
def roleOf? (arg : OsText) : Option Role := arg.text?.bind Role.ofFlag?

/-- How a process with these arguments, its program name first, was invoked. -/
def ofArgs (args : List OsText) : Except ReentryError Invocation :=
  match args.drop 1 with
  | [] => .ok .root
  | flag :: rest =>
    match roleOf? flag with
    | none => .ok .root
    | some role =>
      match readFds role rest with
      | .error e => .error e
      | .ok fds =>
        if fds.read = fds.write then
          .error (.invocation (role.name ++ " read and write descriptors are both " ++
            toString fds.read.toInt))
        else .ok (.reentry role fds)

end Invocation

end ProcessTree
