import Innit.Service

/-!
# Descriptors

The sockets and files of a service are made before it is forked, and the child finds their numbers in its environment. A character of a
name is a byte.
-/

namespace Innit

/-- `ANDROID_SOCKET_ENV_PREFIX` and `ANDROID_FILE_ENV_PREFIX`. -/
def androidSocketEnvPrefix : String := "ANDROID_SOCKET_"
def androidFileEnvPrefix : String := "ANDROID_FILE_"

/-- The environment of a process. -/
abbrev Environment := String → Option String

/-- `setenv(name, value, 1)`. -/
def setenv (env : Environment) (name value : String) : Environment := fun n => if n = name then some value else env n

/-- `isalnum`, in the C locale. -/
def isAlnum (c : Char) : Bool := isAlpha c || isDigit c

/-- `Descriptor`. -/
structure Descriptor where
  name : String
  fd : Nat
deriving DecidableEq, Repr

/-- The name `Publish` gives a variable: all but letters and digits become `_`. -/
def publishedName (name : String) : String := String.ofList (name.toList.map (fun c => if isAlnum c then c else '_'))

/-- `Publish`. -/
def Descriptor.publish (d : Descriptor) (env : Environment) : Environment := setenv env (publishedName d.name) (toString d.fd)

/-- What the kernel answers to the calls of `Create`: a number, unless they fail. -/
structure Opened where
  socket : SocketDescriptor → Option Nat
  file : FileDescriptor → Option Nat

/-- `SocketDescriptor::Create`. -/
def SocketDescriptor.create (K : Opened) (d : SocketDescriptor) : Option Descriptor :=
  (K.socket d).map (⟨androidSocketEnvPrefix ++ d.name, ·⟩)

/-- `FileDescriptor::Create`. -/
def FileDescriptor.create (K : Opened) (d : FileDescriptor) : Option Descriptor :=
  (K.file d).map (⟨androidFileEnvPrefix ++ d.name, ·⟩)

namespace Service

/-- The descriptors `Start` makes: first the sockets, then the files, without those that cannot be made. -/
def descriptors (K : Opened) (s : Service) : List Descriptor :=
  s.sockets.filterMap (SocketDescriptor.create K) ++ s.files.filterMap (FileDescriptor.create K)

/-- The environment of the child once `Start` has published the descriptors in it. -/
def published (K : Opened) (s : Service) (env : Environment) : Environment :=
  (s.descriptors K).foldl (fun env d => d.publish env) env

end Service

end Innit
