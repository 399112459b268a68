/-
  The places of a bare system: its directories, as far as everybody knows them.

  Files that are not known can be made wherever there is a directory for them.  `Places.toWrite` says what the system
  has against writing to a path.
-/
import Leasehold.Error
namespace Leasehold

namespace Places

/-- The directories of a bare system. -/
def directories : List String :=
  ["/", "/bin", "/boot", "/dev", "/etc", "/home", "/lib", "/media", "/mnt", "/opt", "/proc", "/root", "/run", "/sbin",
   "/srv", "/sys", "/tmp", "/usr", "/usr/bin", "/usr/lib", "/usr/local", "/usr/local/bin", "/usr/sbin", "/usr/share",
   "/var", "/var/log", "/var/tmp", "/var/lib", "/dev/shm"]

/-- The files of a bare system that a path may go through by mistake. -/
def files : List String :=
  ["/dev/null", "/dev/zero", "/dev/full", "/etc/passwd", "/etc/hostname", "/etc/hosts", "/bin/sh", "/bin/true",
   "/bin/false", "/bin/echo", "/usr/bin/true", "/usr/bin/false", "/usr/bin/echo", "/usr/bin/sh"]

/-- The parts of a path with `.` and `..` resolved, the last part first. -/
def resolveParts (acc : List String) : List String → List String
  | [] => acc
  | part :: rest =>
    if part = "" || part = "." then resolveParts acc rest
    else if part = ".." then resolveParts (acc.drop 1) rest
    else resolveParts (part :: acc) rest

/-- The text of the parts of a path, the last part first. -/
def pathOf (parts : List String) : String := "/" ++ "/".intercalate parts.reverse

/-- The parts of a path from the root, the last part first; a path that does not begin there begins in the root. -/
def partsOf (path : String) : List String := resolveParts [] (path.splitOn "/")

/-- A path with nothing in it that could be left out.  Two slashes at its front stay two. -/
def normal (path : String) : String :=
  let text := pathOf (partsOf path)
  if "//".toList.isPrefixOf path.toList && !("///".toList.isPrefixOf path.toList) then "/" ++ text else text

/-- Whether a path, or a name in it, is longer than any may be. -/
def isTooLong (path : String) : Bool :=
  path.utf8ByteSize > 4095 || (path.splitOn "/").any fun part => part.utf8ByteSize > 255

/-- What the system has against the directories that a path goes through, the last part first. -/
def throughFault? : List String → Option FileFault
  | [] => none
  | part :: rest =>
    match throughFault? rest with
    | some fault => some fault
    | none =>
      if directories.contains (pathOf (part :: rest)) then none
      else if files.contains (pathOf (part :: rest)) then some .notDirectory
      else some .absent

/-- The directories that a path goes through, the last part first: all of them if a slash ends it. -/
def through (path : String) : List String :=
  if path.toList.getLast? = some '/' then partsOf path else (partsOf path).drop 1

/-- What the system has against new files in a directory that it fills itself. -/
def newFileFault? (whole : String) : Option FileFault :=
  if "/proc/".toList.isPrefixOf whole.toList then some .absent
  else if "/sys/".toList.isPrefixOf whole.toList then some .denied
  else none

/-- **What the system has against writing to a path.** -/
def toWrite (path : String) : Except Error Unit :=
  let whole := pathOf (partsOf path)
  if path.toList.contains '\x00' then .error (.raised .value "embedded null byte")
  else if isTooLong path then .error (.file .tooLong (normal path))
  else match throughFault? ((partsOf path).drop 1) with
    | some fault => .error (.file fault (normal path))
    | none =>
      if directories.contains whole then .error (.file .directory (normal path))
      else match newFileFault? whole with
        | some fault => .error (.file fault (normal path))
        | none => .ok ()

/-- **What the system has against running the program at a path**, if the program is none that it knows.  A name alone is
looked for where programs are. -/
def toRun (path : String) : FileFault :=
  if isTooLong path then .tooLong
  else if path = "" || path = "." || path = ".." then .denied
  else if !(path.toList.contains '/') then .absent
  else match throughFault? (through path) with
    | some fault => fault
    | none =>
      let whole := pathOf (partsOf path)
      if directories.contains whole || files.contains whole then .denied else .absent

end Places
end Leasehold
