import Chaincode.Text

/-!
# The system around a program

The variables that a program is started with, the files that it can read, and what it is told when
something fails.
-/

/-!
## Environments

The variables that a process is started with.
-/

namespace Chaincode

/-- The value of each variable that is set. -/
abbrev Environment := String → Option String

/-- The environment with the given variables and no others. -/
def Environment.ofList (bindings : List (String × String)) : Environment := fun name =>
  (bindings.find? (·.1 = name)).map (·.2)

/-!
## System error numbers

The wording of the numbers with which system calls fail.
-/

/-- Each error number with its text. -/
def errnoTexts : List (Nat × String) :=
  [(0, "Success"),
   (1, "Operation not permitted"),
   (2, "No such file or directory"),
   (3, "No such process"),
   (4, "Interrupted system call"),
   (5, "Input/output error"),
   (6, "No such device or address"),
   (7, "Argument list too long"),
   (8, "Exec format error"),
   (9, "Bad file descriptor"),
   (10, "No child processes"),
   (11, "Resource temporarily unavailable"),
   (12, "Cannot allocate memory"),
   (13, "Permission denied"),
   (14, "Bad address"),
   (15, "Block device required"),
   (16, "Device or resource busy"),
   (17, "File exists"),
   (18, "Invalid cross-device link"),
   (19, "No such device"),
   (20, "Not a directory"),
   (21, "Is a directory"),
   (22, "Invalid argument"),
   (23, "Too many open files in system"),
   (24, "Too many open files"),
   (25, "Inappropriate ioctl for device"),
   (26, "Text file busy"),
   (27, "File too large"),
   (28, "No space left on device"),
   (29, "Illegal seek"),
   (30, "Read-only file system"),
   (31, "Too many links"),
   (32, "Broken pipe"),
   (33, "Numerical argument out of domain"),
   (34, "Numerical result out of range"),
   (35, "Resource deadlock avoided"),
   (36, "File name too long"),
   (37, "No locks available"),
   (38, "Function not implemented"),
   (39, "Directory not empty"),
   (40, "Too many levels of symbolic links"),
   (42, "No message of desired type"),
   (43, "Identifier removed"),
   (44, "Channel number out of range"),
   (45, "Level 2 not synchronized"),
   (46, "Level 3 halted"),
   (47, "Level 3 reset"),
   (48, "Link number out of range"),
   (49, "Protocol driver not attached"),
   (50, "No CSI structure available"),
   (51, "Level 2 halted"),
   (52, "Invalid exchange"),
   (53, "Invalid request descriptor"),
   (54, "Exchange full"),
   (55, "No anode"),
   (56, "Invalid request code"),
   (57, "Invalid slot"),
   (59, "Bad font file format"),
   (60, "Device not a stream"),
   (61, "No data available"),
   (62, "Timer expired"),
   (63, "Out of streams resources"),
   (64, "Machine is not on the network"),
   (65, "Package not installed"),
   (66, "Object is remote"),
   (67, "Link has been severed"),
   (68, "Advertise error"),
   (69, "Srmount error"),
   (70, "Communication error on send"),
   (71, "Protocol error"),
   (72, "Multihop attempted"),
   (73, "RFS specific error"),
   (74, "Bad message"),
   (75, "Value too large for defined data type"),
   (76, "Name not unique on network"),
   (77, "File descriptor in bad state"),
   (78, "Remote address changed"),
   (79, "Can not access a needed shared library"),
   (80, "Accessing a corrupted shared library"),
   (81, ".lib section in a.out corrupted"),
   (82, "Attempting to link in too many shared libraries"),
   (83, "Cannot exec a shared library directly"),
   (84, "Invalid or incomplete multibyte or wide character"),
   (85, "Interrupted system call should be restarted"),
   (86, "Streams pipe error"),
   (87, "Too many users"),
   (88, "Socket operation on non-socket"),
   (89, "Destination address required"),
   (90, "Message too long"),
   (91, "Protocol wrong type for socket"),
   (92, "Protocol not available"),
   (93, "Protocol not supported"),
   (94, "Socket type not supported"),
   (95, "Operation not supported"),
   (96, "Protocol family not supported"),
   (97, "Address family not supported by protocol"),
   (98, "Address already in use"),
   (99, "Cannot assign requested address"),
   (100, "Network is down"),
   (101, "Network is unreachable"),
   (102, "Network dropped connection on reset"),
   (103, "Software caused connection abort"),
   (104, "Connection reset by peer"),
   (105, "No buffer space available"),
   (106, "Transport endpoint is already connected"),
   (107, "Transport endpoint is not connected"),
   (108, "Cannot send after transport endpoint shutdown"),
   (109, "Too many references: cannot splice"),
   (110, "Connection timed out"),
   (111, "Connection refused"),
   (112, "Host is down"),
   (113, "No route to host"),
   (114, "Operation already in progress"),
   (115, "Operation now in progress"),
   (116, "Stale file handle"),
   (117, "Structure needs cleaning"),
   (118, "Not a XENIX named type file"),
   (119, "No XENIX semaphores available"),
   (120, "Is a named type file"),
   (121, "Remote I/O error"),
   (122, "Disk quota exceeded"),
   (123, "No medium found"),
   (124, "Wrong medium type"),
   (125, "Operation canceled"),
   (126, "Required key not available"),
   (127, "Key has expired"),
   (128, "Key has been revoked"),
   (129, "Key was rejected by service"),
   (130, "Owner died"),
   (131, "State not recoverable"),
   (132, "Operation not possible due to RF-kill"),
   (133, "Memory page has hardware error")]

/-- The text of an error number. -/
def errnoText (n : Int) : String :=
  match errnoTexts.find? fun (known, _) => (known : Int) = n with
  | some (_, text) => text
  | none => "Unknown error " ++ toString n

/-!
## System faults

Failures of input and output: either an error number of the system, or a kind of failure with or
without a message of its own.
-/

/-- The kinds of failure that are told apart without an error number. -/
inductive SystemFault.Kind where
  | notFound
  | permissionDenied
  | connectionRefused
  | connectionReset
  | connectionAborted
  | notConnected
  | addressInUse
  | brokenPipe
  | timedOut
  | unexpectedEnd
  | invalidData
  | other
  deriving DecidableEq, Repr

def SystemFault.Kind.description : SystemFault.Kind → String
  | notFound => "entity not found"
  | permissionDenied => "permission denied"
  | connectionRefused => "connection refused"
  | connectionReset => "connection reset"
  | connectionAborted => "connection aborted"
  | notConnected => "not connected"
  | addressInUse => "address in use"
  | brokenPipe => "broken pipe"
  | timedOut => "timed out"
  | unexpectedEnd => "unexpected end of file"
  | invalidData => "invalid data"
  | other => "other error"

/-- A failure of input or output. -/
inductive SystemFault where
  | errno (number : Int)
  | plain (kind : SystemFault.Kind)
  | message (text : String)
  deriving DecidableEq, Repr

namespace SystemFault

def text : SystemFault → String
  | errno number => errnoText number ++ " (os error " ++ toString number ++ ")"
  | plain kind => kind.description
  | message text => text

def noSuchFile : SystemFault := errno 2

def notADirectory : SystemFault := errno 20

def isADirectory : SystemFault := errno 21

def addressInUse : SystemFault := errno 98

def networkUnreachable : SystemFault := errno 101

end SystemFault

/-!
## Files

Whether a path names anything, and what can be read there. The two answers stand by themselves, since a
file that is there need not be open to its reader. A file system is known only through its answers, so that
"this file is not read" says that a result does not depend on one of them. A tree of named files and
directories, all of them open, is one way to come by such answers.
-/

/-- The answers of a file system for each path. -/
structure Files where
  /-- Does the path name anything? A path that cannot be looked up counts as naming nothing. -/
  has : String → Bool
  /-- The content of the file. -/
  read : String → Except SystemFault Bytes

namespace Files

/-- The content of a file that holds text. -/
def readText (files : Files) (path : String) : Except SystemFault String :=
  match files.read path with
  | .error fault => .error fault
  | .ok content =>
    match Bytes.text? content with
    | some text => .ok text
    | none => .error (.message "stream did not contain valid UTF-8")

/-! ### Trees -/

/-- What a path can name. -/
inductive Entry where
  | file (content : Bytes)
  | directory
  deriving DecidableEq

/-- The content of what a path names, if that is a file. -/
def Entry.read : Entry → Except SystemFault Bytes
  | .file content => .ok content
  | .directory => .error .isADirectory

/-- Files and directories by the names that lead to them from the root. The directories on the way
to an entry are there too. -/
abbrev Tree := List (List String × Entry)

/-- What lies at a place. -/
def Tree.at? (tree : Tree) (place : List String) : Option Entry :=
  match tree.find? (·.1 = place) with
  | some (_, entry) => some entry
  | none =>
    if place = [] || tree.any fun (names, _) => place.isPrefixOf names then some .directory
    else none

/-- The longest name and the longest path that can be looked up, in bytes. -/
def maxName : Nat := 255

def maxPath : Nat := 4095

def nameTooLong : SystemFault := .errno 36

/-- Follows names from a place. -/
def Tree.walk (tree : Tree) : List String → List String → Except SystemFault Entry
  | place, [] =>
    match tree.at? place with
    | some entry => .ok entry
    | none => .error .noSuchFile
  | place, name :: names =>
    match tree.at? place with
    | none => .error .noSuchFile
    | some (.file _) => .error .notADirectory
    | some .directory =>
      if name = "" || name = "." then tree.walk place names
      else if name = ".." then tree.walk place.dropLast names
      else if maxName < name.utf8ByteSize then .error nameTooLong
      else tree.walk (place ++ [name]) names

/-- The names in a path. -/
def names (path : String) : List String :=
  (path.toList.splitOn '/').map String.ofList

/-- What a path leads to; one without a leading slash starts at the root too. -/
def Tree.lookup (tree : Tree) (path : String) : Except SystemFault Entry :=
  if path.toList.contains '\x00' then
    .error (.message "file name contained an unexpected NUL byte")
  else if path = "" then .error .noSuchFile
  else if maxPath < path.utf8ByteSize then .error nameTooLong
  else tree.walk [] (names path)

/-- The file system that holds exactly a tree. -/
def ofTree (tree : Tree) : Files where
  has path := (tree.lookup path).isOk
  read path := (tree.lookup path).bind Entry.read

end Files

end Chaincode
