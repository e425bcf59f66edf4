-- Error numbers of system calls, and failures of input and output.
namespace ProcessTree

/-- An error number of a system call. -/
structure Errno where
  number : Int
  deriving DecidableEq, Repr, Inhabited

namespace Errno

/-- What is known of an error number: its name, how a failed call describes it, and how a
failed read or write describes it. -/
structure Entry where
  number : Int
  name : String
  description : String
  systemText : String

/-- An entry whose two descriptions agree. -/
def Entry.plain (number : Int) (name text : String) : Entry := ⟨number, name, text, text⟩

/-- The known error numbers. -/
def table : List Entry := [
  ⟨0, "UnknownErrno", "Unknown errno", "Success"⟩,
  .plain 1 "EPERM" "Operation not permitted",
  .plain 2 "ENOENT" "No such file or directory",
  .plain 3 "ESRCH" "No such process",
  .plain 4 "EINTR" "Interrupted system call",
  ⟨5, "EIO", "I/O error", "Input/output error"⟩,
  .plain 6 "ENXIO" "No such device or address",
  .plain 7 "E2BIG" "Argument list too long",
  .plain 8 "ENOEXEC" "Exec format error",
  ⟨9, "EBADF", "Bad file number", "Bad file descriptor"⟩,
  ⟨10, "ECHILD", "No child processes", "No child processes"⟩,
  ⟨11, "EAGAIN", "Try again", "Resource temporarily unavailable"⟩,
  ⟨12, "ENOMEM", "Out of memory", "Cannot allocate memory"⟩,
  .plain 13 "EACCES" "Permission denied",
  .plain 14 "EFAULT" "Bad address",
  .plain 15 "ENOTBLK" "Block device required",
  .plain 16 "EBUSY" "Device or resource busy",
  .plain 17 "EEXIST" "File exists",
  ⟨18, "EXDEV", "Cross-device link", "Invalid cross-device link"⟩,
  .plain 19 "ENODEV" "No such device",
  .plain 20 "ENOTDIR" "Not a directory",
  .plain 21 "EISDIR" "Is a directory",
  .plain 22 "EINVAL" "Invalid argument",
  ⟨23, "ENFILE", "File table overflow", "Too many open files in system"⟩,
  .plain 24 "EMFILE" "Too many open files",
  ⟨25, "ENOTTY", "Not a typewriter", "Inappropriate ioctl for device"⟩,
  .plain 26 "ETXTBSY" "Text file busy",
  .plain 27 "EFBIG" "File too large",
  .plain 28 "ENOSPC" "No space left on device",
  .plain 29 "ESPIPE" "Illegal seek",
  .plain 30 "EROFS" "Read-only file system",
  .plain 31 "EMLINK" "Too many links",
  .plain 32 "EPIPE" "Broken pipe",
  ⟨33, "EDOM", "Math argument out of domain of func", "Numerical argument out of domain"⟩,
  ⟨34, "ERANGE", "Math result not representable", "Numerical result out of range"⟩,
  ⟨35, "EDEADLK", "Resource deadlock would occur", "Resource deadlock avoided"⟩,
  .plain 36 "ENAMETOOLONG" "File name too long",
  ⟨37, "ENOLCK", "No record locks available", "No locks available"⟩,
  .plain 38 "ENOSYS" "Function not implemented",
  .plain 39 "ENOTEMPTY" "Directory not empty",
  ⟨40, "ELOOP", "Too many symbolic links encountered", "Too many levels of symbolic links"⟩,
  .plain 42 "ENOMSG" "No message of desired type",
  .plain 43 "EIDRM" "Identifier removed",
  .plain 44 "ECHRNG" "Channel number out of range",
  .plain 45 "EL2NSYNC" "Level 2 not synchronized",
  .plain 46 "EL3HLT" "Level 3 halted",
  .plain 47 "EL3RST" "Level 3 reset",
  .plain 48 "ELNRNG" "Link number out of range",
  .plain 49 "EUNATCH" "Protocol driver not attached",
  .plain 50 "ENOCSI" "No CSI structure available",
  .plain 51 "EL2HLT" "Level 2 halted",
  .plain 52 "EBADE" "Invalid exchange",
  .plain 53 "EBADR" "Invalid request descriptor",
  .plain 54 "EXFULL" "Exchange full",
  .plain 55 "ENOANO" "No anode",
  .plain 56 "EBADRQC" "Invalid request code",
  .plain 57 "EBADSLT" "Invalid slot",
  .plain 59 "EBFONT" "Bad font file format",
  .plain 60 "ENOSTR" "Device not a stream",
  .plain 61 "ENODATA" "No data available",
  .plain 62 "ETIME" "Timer expired",
  .plain 63 "ENOSR" "Out of streams resources",
  .plain 64 "ENONET" "Machine is not on the network",
  .plain 65 "ENOPKG" "Package not installed",
  .plain 66 "EREMOTE" "Object is remote",
  .plain 67 "ENOLINK" "Link has been severed",
  .plain 68 "EADV" "Advertise error",
  .plain 69 "ESRMNT" "Srmount error",
  .plain 70 "ECOMM" "Communication error on send",
  .plain 71 "EPROTO" "Protocol error",
  .plain 72 "EMULTIHOP" "Multihop attempted",
  .plain 73 "EDOTDOT" "RFS specific error",
  ⟨74, "EBADMSG", "Not a data message", "Bad message"⟩,
  .plain 75 "EOVERFLOW" "Value too large for defined data type",
  .plain 76 "ENOTUNIQ" "Name not unique on network",
  .plain 77 "EBADFD" "File descriptor in bad state",
  .plain 78 "EREMCHG" "Remote address changed",
  .plain 79 "ELIBACC" "Can not access a needed shared library",
  .plain 80 "ELIBBAD" "Accessing a corrupted shared library",
  .plain 81 "ELIBSCN" ".lib section in a.out corrupted",
  .plain 82 "ELIBMAX" "Attempting to link in too many shared libraries",
  .plain 83 "ELIBEXEC" "Cannot exec a shared library directly",
  ⟨84, "EILSEQ", "Illegal byte sequence", "Invalid or incomplete multibyte or wide character"⟩,
  .plain 85 "ERESTART" "Interrupted system call should be restarted",
  .plain 86 "ESTRPIPE" "Streams pipe error",
  .plain 87 "EUSERS" "Too many users",
  .plain 88 "ENOTSOCK" "Socket operation on non-socket",
  .plain 89 "EDESTADDRREQ" "Destination address required",
  .plain 90 "EMSGSIZE" "Message too long",
  .plain 91 "EPROTOTYPE" "Protocol wrong type for socket",
  .plain 92 "ENOPROTOOPT" "Protocol not available",
  .plain 93 "EPROTONOSUPPORT" "Protocol not supported",
  .plain 94 "ESOCKTNOSUPPORT" "Socket type not supported",
  ⟨95, "EOPNOTSUPP", "Operation not supported on transport endpoint", "Operation not supported"⟩,
  .plain 96 "EPFNOSUPPORT" "Protocol family not supported",
  .plain 97 "EAFNOSUPPORT" "Address family not supported by protocol",
  .plain 98 "EADDRINUSE" "Address already in use",
  .plain 99 "EADDRNOTAVAIL" "Cannot assign requested address",
  .plain 100 "ENETDOWN" "Network is down",
  .plain 101 "ENETUNREACH" "Network is unreachable",
  ⟨102, "ENETRESET", "Network dropped connection because of reset",
    "Network dropped connection on reset"⟩,
  .plain 103 "ECONNABORTED" "Software caused connection abort",
  .plain 104 "ECONNRESET" "Connection reset by peer",
  .plain 105 "ENOBUFS" "No buffer space available",
  .plain 106 "EISCONN" "Transport endpoint is already connected",
  .plain 107 "ENOTCONN" "Transport endpoint is not connected",
  .plain 108 "ESHUTDOWN" "Cannot send after transport endpoint shutdown",
  .plain 109 "ETOOMANYREFS" "Too many references: cannot splice",
  .plain 110 "ETIMEDOUT" "Connection timed out",
  .plain 111 "ECONNREFUSED" "Connection refused",
  .plain 112 "EHOSTDOWN" "Host is down",
  .plain 113 "EHOSTUNREACH" "No route to host",
  .plain 114 "EALREADY" "Operation already in progress",
  .plain 115 "EINPROGRESS" "Operation now in progress",
  .plain 116 "ESTALE" "Stale file handle",
  .plain 117 "EUCLEAN" "Structure needs cleaning",
  .plain 118 "ENOTNAM" "Not a XENIX named type file",
  .plain 119 "ENAVAIL" "No XENIX semaphores available",
  .plain 120 "EISNAM" "Is a named type file",
  .plain 121 "EREMOTEIO" "Remote I/O error",
  ⟨122, "EDQUOT", "Quota exceeded", "Disk quota exceeded"⟩,
  .plain 123 "ENOMEDIUM" "No medium found",
  .plain 124 "EMEDIUMTYPE" "Wrong medium type",
  .plain 125 "ECANCELED" "Operation canceled",
  .plain 126 "ENOKEY" "Required key not available",
  .plain 127 "EKEYEXPIRED" "Key has expired",
  .plain 128 "EKEYREVOKED" "Key has been revoked",
  .plain 129 "EKEYREJECTED" "Key was rejected by service",
  .plain 130 "EOWNERDEAD" "Owner died",
  .plain 131 "ENOTRECOVERABLE" "State not recoverable",
  .plain 132 "ERFKILL" "Operation not possible due to RF-kill",
  .plain 133 "EHWPOISON" "Memory page has hardware error"]

/-- What is known of an error number, if anything. -/
def entry? (e : Errno) : Option Entry := table.find? (·.number == e.number)

/-- The name of an error number. -/
def name (e : Errno) : String := (e.entry?.map (·.name)).getD "UnknownErrno"

/-- The text of a failed call: name and description. -/
def message (e : Errno) : String :=
  e.name ++ ": " ++ (e.entry?.map (·.description)).getD "Unknown errno"

/-- How a failed read or write is described. -/
def systemText (e : Errno) : String :=
  (e.entry?.map (·.systemText)).getD ("Unknown error " ++ toString e.number)

/-- The text of a failed read or write: description and number. -/
def systemMessage (e : Errno) : String :=
  e.systemText ++ " (os error " ++ toString e.number ++ ")"

def notPermitted : Errno := ⟨1⟩
def noSuchFile : Errno := ⟨2⟩
def noSuchProcess : Errno := ⟨3⟩
def interrupted : Errno := ⟨4⟩
def argumentListTooLong : Errno := ⟨7⟩
def badFormat : Errno := ⟨8⟩
def badDescriptor : Errno := ⟨9⟩
def noChild : Errno := ⟨10⟩
def permissionDenied : Errno := ⟨13⟩
def notDirectory : Errno := ⟨20⟩
def isDirectory : Errno := ⟨21⟩
def invalidArgument : Errno := ⟨22⟩
def brokenPipe : Errno := ⟨32⟩
def nameTooLong : Errno := ⟨36⟩

end Errno

/-- A failure of input or output: the system's, or one that is only told in words. -/
inductive IoFailure where
  | system (errno : Errno)
  | told (text : String)
  deriving DecidableEq, Repr, Inhabited

namespace IoFailure

/-- The text of a failure. -/
def message : IoFailure → String
  | .system errno => errno.systemMessage
  | .told text => text

/-- A descriptor that should be a pipe is none. -/
def notPipe : IoFailure := .told "not a pipe"

/-- A pipe end that should write cannot. -/
def notWritable : IoFailure := .told "not in O_WRONLY or O_RDWR access mode"

/-- A pipe end that should read cannot. -/
def notReadable : IoFailure := .told "not in O_RDONLY or O_RDWR access mode"

end IoFailure

end ProcessTree
