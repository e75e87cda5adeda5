/-!
# Errors — failures of the system

How the operating system reports a failed call, and which dimensions are impossible from the
start.  What the library makes of them is in `Errors/SyncError.lean`.
-/

namespace SharedSync

/-! ### Kinds of failure

What a failed call of the operating system comes to, whatever its number.  A failure that has
nothing but its kind has the kind's own text. -/

/-- What went wrong, whatever number the system gave it. -/
inductive FailureKind where
  | notFound
  | permissionDenied
  | connectionRefused
  | connectionReset
  | hostUnreachable
  | networkUnreachable
  | connectionAborted
  | notConnected
  | addressInUse
  | addressNotAvailable
  | networkDown
  | brokenPipe
  | alreadyExists
  | wouldBlock
  | notADirectory
  | isADirectory
  | directoryNotEmpty
  | readOnlyFilesystem
  | filesystemLoop
  | staleNetworkHandle
  | invalidInput
  | invalidData
  | timedOut
  | writeZero
  | storageFull
  | notSeekable
  | quotaExceeded
  | fileTooLarge
  | resourceBusy
  | executableBusy
  | deadlock
  | crossesDevices
  | tooManyLinks
  | invalidFilename
  | argumentsTooLong
  | interrupted
  | unsupported
  | unexpectedEnd
  | outOfMemory
  | inProgress
  | tooManyOpenFiles
  | inputOutput
  | other
  | uncategorized
deriving DecidableEq, Repr

namespace FailureKind

/-- The text of a failure that has nothing but its kind. -/
def text : FailureKind → String
  | notFound => "entity not found"
  | permissionDenied => "permission denied"
  | connectionRefused => "connection refused"
  | connectionReset => "connection reset"
  | hostUnreachable => "host unreachable"
  | networkUnreachable => "network unreachable"
  | connectionAborted => "connection aborted"
  | notConnected => "not connected"
  | addressInUse => "address in use"
  | addressNotAvailable => "address not available"
  | networkDown => "network down"
  | brokenPipe => "broken pipe"
  | alreadyExists => "entity already exists"
  | wouldBlock => "operation would block"
  | notADirectory => "not a directory"
  | isADirectory => "is a directory"
  | directoryNotEmpty => "directory not empty"
  | readOnlyFilesystem => "read-only filesystem or storage medium"
  | filesystemLoop => "filesystem loop or indirection limit (e.g. symlink loop)"
  | staleNetworkHandle => "stale network file handle"
  | invalidInput => "invalid input parameter"
  | invalidData => "invalid data"
  | timedOut => "timed out"
  | writeZero => "write zero"
  | storageFull => "no storage space"
  | notSeekable => "seek on unseekable file"
  | quotaExceeded => "quota exceeded"
  | fileTooLarge => "file too large"
  | resourceBusy => "resource busy"
  | executableBusy => "executable file busy"
  | deadlock => "deadlock"
  | crossesDevices => "cross-device link or rename"
  | tooManyLinks => "too many links"
  | invalidFilename => "invalid filename"
  | argumentsTooLong => "argument list too long"
  | interrupted => "operation interrupted"
  | unsupported => "unsupported"
  | unexpectedEnd => "unexpected end of file"
  | outOfMemory => "out of memory"
  | inProgress => "in progress"
  | tooManyOpenFiles => "too many open files"
  | inputOutput => "input/output error"
  | other => "other error"
  | uncategorized => "uncategorized error"

/-- Every kind, once. -/
def all : List FailureKind :=
  [.notFound, .permissionDenied, .connectionRefused, .connectionReset, .hostUnreachable,
   .networkUnreachable, .connectionAborted, .notConnected, .addressInUse, .addressNotAvailable,
   .networkDown, .brokenPipe, .alreadyExists, .wouldBlock, .notADirectory, .isADirectory,
   .directoryNotEmpty, .readOnlyFilesystem, .filesystemLoop, .staleNetworkHandle, .invalidInput,
   .invalidData, .timedOut, .writeZero, .storageFull, .notSeekable, .quotaExceeded, .fileTooLarge,
   .resourceBusy, .executableBusy, .deadlock, .crossesDevices, .tooManyLinks, .invalidFilename,
   .argumentsTooLong, .interrupted, .unsupported, .unexpectedEnd, .outOfMemory, .inProgress,
   .tooManyOpenFiles, .inputOutput, .other, .uncategorized]

/-- The list leaves no kind out. -/
theorem mem_all (kind : FailureKind) : kind ∈ all := by
  cases kind <;> decide

end FailureKind

end SharedSync

/-! ### Error numbers

The table of error numbers: number, kind, text.  A number outside it is an unknown error of no
kind (`ErrorNumber.kind`, `ErrorNumber.text`). -/

namespace SharedSync.ErrorNumber

/-- The numbers in order; 41 and 58 are not assigned. -/
def table : List (Int32 × FailureKind × String) :=
  [(0, .uncategorized, "Success"),
   (1, .permissionDenied, "Operation not permitted"),
   (2, .notFound, "No such file or directory"),
   (3, .uncategorized, "No such process"),
   (4, .interrupted, "Interrupted system call"),
   (5, .inputOutput, "Input/output error"),
   (6, .uncategorized, "No such device or address"),
   (7, .argumentsTooLong, "Argument list too long"),
   (8, .uncategorized, "Exec format error"),
   (9, .uncategorized, "Bad file descriptor"),
   (10, .uncategorized, "No child processes"),
   (11, .wouldBlock, "Resource temporarily unavailable"),
   (12, .outOfMemory, "Cannot allocate memory"),
   (13, .permissionDenied, "Permission denied"),
   (14, .uncategorized, "Bad address"),
   (15, .uncategorized, "Block device required"),
   (16, .resourceBusy, "Device or resource busy"),
   (17, .alreadyExists, "File exists"),
   (18, .crossesDevices, "Invalid cross-device link"),
   (19, .uncategorized, "No such device"),
   (20, .notADirectory, "Not a directory"),
   (21, .isADirectory, "Is a directory"),
   (22, .invalidInput, "Invalid argument"),
   (23, .tooManyOpenFiles, "Too many open files in system"),
   (24, .tooManyOpenFiles, "Too many open files"),
   (25, .uncategorized, "Inappropriate ioctl for device"),
   (26, .executableBusy, "Text file busy"),
   (27, .fileTooLarge, "File too large"),
   (28, .storageFull, "No space left on device"),
   (29, .notSeekable, "Illegal seek"),
   (30, .readOnlyFilesystem, "Read-only file system"),
   (31, .tooManyLinks, "Too many links"),
   (32, .brokenPipe, "Broken pipe"),
   (33, .uncategorized, "Numerical argument out of domain"),
   (34, .uncategorized, "Numerical result out of range"),
   (35, .deadlock, "Resource deadlock avoided"),
   (36, .invalidFilename, "File name too long"),
   (37, .uncategorized, "No locks available"),
   (38, .unsupported, "Function not implemented"),
   (39, .directoryNotEmpty, "Directory not empty"),
   (40, .filesystemLoop, "Too many levels of symbolic links"),
   (42, .uncategorized, "No message of desired type"),
   (43, .uncategorized, "Identifier removed"),
   (44, .uncategorized, "Channel number out of range"),
   (45, .uncategorized, "Level 2 not synchronized"),
   (46, .uncategorized, "Level 3 halted"),
   (47, .uncategorized, "Level 3 reset"),
   (48, .uncategorized, "Link number out of range"),
   (49, .uncategorized, "Protocol driver not attached"),
   (50, .uncategorized, "No CSI structure available"),
   (51, .uncategorized, "Level 2 halted"),
   (52, .uncategorized, "Invalid exchange"),
   (53, .uncategorized, "Invalid request descriptor"),
   (54, .uncategorized, "Exchange full"),
   (55, .uncategorized, "No anode"),
   (56, .uncategorized, "Invalid request code"),
   (57, .uncategorized, "Invalid slot"),
   (59, .uncategorized, "Bad font file format"),
   (60, .uncategorized, "Device not a stream"),
   (61, .uncategorized, "No data available"),
   (62, .uncategorized, "Timer expired"),
   (63, .uncategorized, "Out of streams resources"),
   (64, .uncategorized, "Machine is not on the network"),
   (65, .uncategorized, "Package not installed"),
   (66, .uncategorized, "Object is remote"),
   (67, .uncategorized, "Link has been severed"),
   (68, .uncategorized, "Advertise error"),
   (69, .uncategorized, "Srmount error"),
   (70, .uncategorized, "Communication error on send"),
   (71, .uncategorized, "Protocol error"),
   (72, .uncategorized, "Multihop attempted"),
   (73, .uncategorized, "RFS specific error"),
   (74, .uncategorized, "Bad message"),
   (75, .uncategorized, "Value too large for defined data type"),
   (76, .uncategorized, "Name not unique on network"),
   (77, .uncategorized, "File descriptor in bad state"),
   (78, .uncategorized, "Remote address changed"),
   (79, .uncategorized, "Can not access a needed shared library"),
   (80, .uncategorized, "Accessing a corrupted shared library"),
   (81, .uncategorized, ".lib section in a.out corrupted"),
   (82, .uncategorized, "Attempting to link in too many shared libraries"),
   (83, .uncategorized, "Cannot exec a shared library directly"),
   (84, .uncategorized, "Invalid or incomplete multibyte or wide character"),
   (85, .uncategorized, "Interrupted system call should be restarted"),
   (86, .uncategorized, "Streams pipe error"),
   (87, .uncategorized, "Too many users"),
   (88, .uncategorized, "Socket operation on non-socket"),
   (89, .uncategorized, "Destination address required"),
   (90, .uncategorized, "Message too long"),
   (91, .uncategorized, "Protocol wrong type for socket"),
   (92, .uncategorized, "Protocol not available"),
   (93, .uncategorized, "Protocol not supported"),
   (94, .uncategorized, "Socket type not supported"),
   (95, .unsupported, "Operation not supported"),
   (96, .uncategorized, "Protocol family not supported"),
   (97, .uncategorized, "Address family not supported by protocol"),
   (98, .addressInUse, "Address already in use"),
   (99, .addressNotAvailable, "Cannot assign requested address"),
   (100, .networkDown, "Network is down"),
   (101, .networkUnreachable, "Network is unreachable"),
   (102, .uncategorized, "Network dropped connection on reset"),
   (103, .connectionAborted, "Software caused connection abort"),
   (104, .connectionReset, "Connection reset by peer"),
   (105, .uncategorized, "No buffer space available"),
   (106, .uncategorized, "Transport endpoint is already connected"),
   (107, .notConnected, "Transport endpoint is not connected"),
   (108, .uncategorized, "Cannot send after transport endpoint shutdown"),
   (109, .uncategorized, "Too many references: cannot splice"),
   (110, .timedOut, "Connection timed out"),
   (111, .connectionRefused, "Connection refused"),
   (112, .uncategorized, "Host is down"),
   (113, .hostUnreachable, "No route to host"),
   (114, .uncategorized, "Operation already in progress"),
   (115, .inProgress, "Operation now in progress"),
   (116, .staleNetworkHandle, "Stale file handle"),
   (117, .uncategorized, "Structure needs cleaning"),
   (118, .uncategorized, "Not a XENIX named type file"),
   (119, .uncategorized, "No XENIX semaphores available"),
   (120, .uncategorized, "Is a named type file"),
   (121, .uncategorized, "Remote I/O error"),
   (122, .quotaExceeded, "Disk quota exceeded"),
   (123, .uncategorized, "No medium found"),
   (124, .uncategorized, "Wrong medium type"),
   (125, .uncategorized, "Operation canceled"),
   (126, .uncategorized, "Required key not available"),
   (127, .uncategorized, "Key has expired"),
   (128, .uncategorized, "Key has been revoked"),
   (129, .uncategorized, "Key was rejected by service"),
   (130, .uncategorized, "Owner died"),
   (131, .uncategorized, "State not recoverable"),
   (132, .uncategorized, "Operation not possible due to RF-kill"),
   (133, .uncategorized, "Memory page has hardware error")]

/-- The kind of a number; numbers that the table does not have are of no category. -/
def kind (number : Int32) : FailureKind :=
  ((table.lookup number).map Prod.fst).getD .uncategorized

/-- The system's text for a number. -/
def text (number : Int32) : String :=
  ((table.lookup number).map Prod.snd).getD ("Unknown error " ++ toString number)

end SharedSync.ErrorNumber

namespace SharedSync

/-! ### System errors

A failed call reports a kind of failure.  It comes with the system's own number (`code`), whose
text and kind are in a table (`ErrorNumber`); or with a kind alone, whose text is fixed (`plain`);
or with a text of its own (`described`). -/

/-- A failed call of the operating system. -/
inductive SystemError where
  | code (number : Int32)
  | plain (kind : FailureKind)
  | described (kind : FailureKind) (text : String)
deriving DecidableEq, Repr

namespace SystemError

/-- The kind, from the table if the system gave a number. -/
def kind : SystemError → FailureKind
  | code number => ErrorNumber.kind number
  | plain kind => kind
  | described kind _ => kind

/-- The number behind the failure, if the system gave one. -/
def number? : SystemError → Option Int32
  | code number => some number
  | _ => none

/-- The text that reports the failure. -/
def text : SystemError → String
  | code number => ErrorNumber.text number ++ " (os error " ++ toString number ++ ")"
  | plain kind => kind.text
  | described _ text => text

/-- There is no file of that name. -/
def noEntry : SystemError := code 2

/-- There is no memory for it. -/
def cannotAllocate : SystemError := code 12

/-- A pointer leads nowhere. -/
def badAddress : SystemError := code 14

/-- The device cannot do it: the null device cannot be mapped. -/
def noDevice : SystemError := code 19

/-- A path leads through something that is no directory. -/
def notDirectory : SystemError := code 20

/-- A directory cannot be opened for writing. -/
def isDirectory : SystemError := code 21

/-- The call does not take that argument. -/
def invalidArgument : SystemError := code 22

/-- The other end of the connection is closed. -/
def brokenPipe : SystemError := code 32

/-- A path, or one name in it, is too long. -/
def nameTooLong : SystemError := code 36

/-- A path holds a NUL byte, which no call can be given. -/
def nulInPath : SystemError :=
  described .invalidInput "file name contained an unexpected NUL byte"

/-- The stream ended inside a fixed number of bytes. -/
def endedEarly : SystemError := described .unexpectedEnd "failed to fill whole buffer"

/-- A write took no byte. -/
def tookNothing : SystemError := described .writeZero "failed to write whole buffer"

end SystemError

/-! ### Impossible dimensions

A directory needs a chunk, a chunk an element, and a page must hold a whole number of state
blocks and be a power of two. -/

/-- Dimensions that no directory or page can have. -/
inductive DimensionError where
  | noChunks
  | emptyChunks
  | pageSize (bytes : Nat)
deriving DecidableEq, Repr

/-- The text of the panic that reports it. -/
def DimensionError.message : DimensionError → String
  | noChunks => "chunk directory needs at least one chunk"
  | emptyChunks => "chunks must hold at least one element"
  | pageSize bytes => "page size " ++ toString bytes ++ " cannot hold state blocks"

end SharedSync
