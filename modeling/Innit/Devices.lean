import Innit.Lib.PathNames
import Innit.Lib.Prog
import Innit.Lib.Trim
import Innit.Uevent

/-!
# The device handler of ueventd

A uevent of a device becomes a node under `/dev`, links to it, and permissions in `/sys`. What is read while one uevent is handled
(links and files of `/sys`, the boot id) is a snapshot; the calls that change something, or that look at `/dev`, are a program, and the
tree of `/dev` with the credentials of the process gives them their meaning. A call may be refused for a reason that is not in the
tree. A directory that is reached through a link is not looked into.
-/

namespace Innit

open Lib

/-- `Dirname`. -/
def pathDirname (path : String) : String := String.ofList (dirname path.toList)

/-- `Basename`. -/
def pathBasename (path : String) : String := String.ofList (Lib.basename path.toList)

/-- `Trim`. -/
def trim (s : String) : String := String.ofList ((s.toList.dropWhile isSpace).rdropWhile isSpace)

/-- What is read outside of `/dev` while one uevent is handled. -/
structure Sysfs where
  realpath : String → Option String := fun _ => none
  readFile : String → Option String := fun _ => none
  «exists» : String → Bool := fun _ => false

/-- `Permissions`: the stem of the name, and how `Match` compares it. -/
structure Permissions where
  name : String
  perm : Nat
  uid : Nat
  gid : Nat
  isPrefix : Bool
  wildcard : Bool
  noFnmPathname : Bool
deriving DecidableEq, Repr

/-- `Permissions::Permissions`. -/
def permissions (name : String) (perm uid gid : Nat) (noFnmPathname : Bool) : Permissions :=
  match name.toList.findIdx? (· = '*') with
  | none => ⟨name, perm, uid, gid, false, false, noFnmPathname⟩
  | some wildcardPosition =>
    if wildcardPosition = name.toList.length - 1 then
      ⟨String.ofList name.toList.dropLast, perm, uid, gid, true, false, noFnmPathname⟩
    else ⟨name, perm, uid, gid, false, true, noFnmPathname⟩

/-- `Permissions::Match`; `fnmatch` takes a pattern, a path, and whether `FNM_PATHNAME` is set. -/
def Permissions.matches (fnmatch : String → String → Bool → Bool) (p : Permissions) (path : String) : Bool :=
  if p.isPrefix then startsWith path p.name
  else if p.wildcard then fnmatch p.name path (!p.noFnmPathname)
  else path = p.name

/-- `SysfsPermissions`. -/
structure SysfsPermissions extends Permissions where
  sysfsAttribute : String
deriving DecidableEq, Repr

/-- Whether a text occurs in another, `s.find(t) != npos`. -/
def contains (s t : String) : Bool := s.toList.tails.any (t.toList.isPrefixOf ·)

/-- `SysfsPermissions::MatchWithSubsystem`. -/
def SysfsPermissions.matchWithSubsystem (fnmatch : String → String → Bool → Bool) (p : SysfsPermissions) (path subsystem : String) :
    Bool :=
  let pathBasename := pathBasename path
  (contains p.name subsystem &&
    (p.matches fnmatch ("/sys/class/" ++ subsystem ++ "/" ++ pathBasename) ||
      p.matches fnmatch ("/sys/bus/" ++ subsystem ++ "/devices/" ++ pathBasename))) ||
  p.matches fnmatch path

/-- `DevnameSource`. -/
inductive DevnameSource where
  | ueventDevname
  | ueventDevpath
deriving DecidableEq, Repr

/-- `Subsystem`. -/
structure Subsystem where
  name : String := ""
  devnameSource : DevnameSource := .ueventDevname
  dirName : String := "/dev"
deriving DecidableEq, Repr

/-- `Subsystem::ParseDevPath`. -/
def Subsystem.parseDevPath (s : Subsystem) (uevent : Uevent) : String :=
  let devname := if s.devnameSource = .ueventDevname then uevent.deviceName else pathBasename uevent.path
  s.dirName ++ "/" ++ devname

/-- `DeviceHandler`, with `fnmatch` of the C library. -/
structure DeviceHandler where
  devPermissions : List Permissions := []
  sysfsPermissions : List SysfsPermissions := []
  subsystems : List Subsystem := []
  bootDevices : List String := []
  skipRestorecon : Bool := false
  sysfsMountPoint : String := "/sys"
  fnmatch : String → String → Bool → Bool := fun pattern path _ => pattern = path

/-- `FindPciDevicePrefix`. -/
def findPciDevicePrefix (path : String) : Option String :=
  if !startsWith path "/devices/pci" then none
  else
    -- the prefix starts with "pci" after "/devices/" and ends before the second slash behind it
    match (path.toList.drop 9).splitOn '/' with
    | bus :: device :: _ :: _ => if bus.length + 1 + device.length ≤ 4 then none else some (String.ofList (bus ++ '/' :: device))
    | _ => none

/-- `FindVbdDevicePrefix`. -/
def findVbdDevicePrefix (path : String) : Option String :=
  if !startsWith path "/devices/vbd-" then none
  else match (path.toList.drop 13).splitOn '/' with
    | vbd :: _ :: _ => if vbd = [] then none else some (String.ofList vbd)
    | _ => none

/-- `FindDmDevice`: the name and the uuid. -/
def findDmDevice (S : Sysfs) (path : String) : Option (String × String) :=
  if !startsWith path "/devices/virtual/block/dm-" then none
  else match S.readFile ("/sys" ++ path ++ "/dm/name") with
    | none => none
    | some name => some (trim name, trim ((S.readFile ("/sys" ++ path ++ "/dm/uuid")).getD ""))

/-- The loop of `FindPlatformDevice`, so many rounds at most, from a path that has the mount point in front of it. -/
def DeviceHandler.findPlatformDeviceFrom (H : DeviceHandler) (S : Sysfs) : Nat → List Char → Option String
  | 0, _ => none
  | rounds + 1, path =>
    let directory := dirname path
    if directory = ['/'] ∨ directory = ['.'] then none
    else
      let subsystemLinkPath := S.realpath (String.ofList directory ++ "/subsystem")
      if subsystemLinkPath = some (H.sysfsMountPoint ++ "/bus/platform") ∨ subsystemLinkPath = some (H.sysfsMountPoint ++ "/bus/amba") then
        some (String.ofList (directory.drop H.sysfsMountPoint.length))
      else match eraseLastName path with
        | none => none
        | some path => H.findPlatformDeviceFrom S rounds path

/-- `FindPlatformDevice`. A round makes the path shorter. -/
def DeviceHandler.findPlatformDevice (H : DeviceHandler) (S : Sysfs) (path : String) : Option String :=
  let path := (H.sysfsMountPoint ++ path).toList
  H.findPlatformDeviceFrom S (path.length + 1) path

/-- `SanitizePartitionName`. -/
def sanitizePartitionName (string : String) : String :=
  String.ofList (string.toList.map (fun c => if isAlpha c || isDigit c || c = '_' || c = '-' || c = '.' then c else '_'))

/-- The links of a block device that is found by its platform device, PCI device or virtual block device. -/
def DeviceHandler.blockDeviceLinks (H : DeviceHandler) (uevent : Uevent) (type device : String) : List String :=
  let linkPath := "/dev/block/" ++ type ++ "/" ++ device
  let isBootDevice := H.bootDevices.contains device
  let byName :=
    if uevent.partitionName ≠ "" then
      let partitionNameSanitized := sanitizePartitionName uevent.partitionName
      [linkPath ++ "/by-name/" ++ partitionNameSanitized] ++
        if isBootDevice then ["/dev/block/by-name/" ++ partitionNameSanitized] else []
    else if isBootDevice then ["/dev/block/by-name/" ++ uevent.deviceName]
    else []
  byName ++ [linkPath ++ "/" ++ String.ofList (lastName uevent.path.toList)]

/-- `GetBlockDeviceSymlinks`. -/
def DeviceHandler.getBlockDeviceSymlinks (H : DeviceHandler) (S : Sysfs) (uevent : Uevent) : List String :=
  match H.findPlatformDevice S uevent.path, findPciDevicePrefix uevent.path, findVbdDevicePrefix uevent.path,
      findDmDevice S uevent.path with
  | some device, _, _, _ =>
    -- "/devices/platform/" or "/devices/" is skipped if present
    let device :=
      if startsWith device "/devices/platform/" then substr device 18
      else if startsWith device "/devices/" then substr device 9
      else device
    H.blockDeviceLinks uevent "platform" device
  | none, some device, _, _ => H.blockDeviceLinks uevent "pci" device
  | none, none, some device, _ => H.blockDeviceLinks uevent "vbd" device
  | none, none, none, some (partition, uuid) =>
    ["/dev/block/mapper/" ++ partition] ++ if uuid ≠ "" then ["/dev/block/mapper/by-uuid/" ++ uuid] else []
  | none, none, none, none => []

/-- `GetDevicePermissions`: the mode, the user and the group. -/
def DeviceHandler.getDevicePermissions (H : DeviceHandler) (path : String) (links : List String) : Nat × Nat × Nat :=
  match H.devPermissions.reverse.find? (fun p => p.matches H.fnmatch path || links.any (p.matches H.fnmatch)) with
  | some p => (p.perm, p.uid, p.gid)
  | none => (0o600, 0, 0)

/-- The errno of a call that succeeded, and those that the device handler asks for or that the tree gives. -/
def eexist : Nat := 17
def eisdir : Nat := 21
def enotdir : Nat := 20

/-- The calls of the device handler that change something, or that look at `/dev`. -/
inductive DevCall where
  -- in /sys
  | chown (path : String) (uid gid : Nat)
  | chmod (path : String) (perm : Nat)
  | restoreconRecursive (path : String)
  -- the credentials of the process
  | setegid (gid : Nat)
  | setfscreatecon (con : Option String)
  -- SELinux labels; the contexts are looked up in the file contexts
  | selabelLookupBestMatch (path : String) (links : List String) (mode : Nat)
  | selabelLookup (path : String) (mode : Nat)
  | lgetfilecon (path : String)
  | lsetfilecon (path con : String)
  -- the tree of /dev
  | stat (path : String)
  | access (path : String)
  | mkdir (path : String) (mode : Nat)
  | mknod (path : String) (mode : Nat) (dev : Int × Int)
  | chownUid (path : String) (uid : Nat)
  | symlink (target path : String)
  | readlink (path : String)
  | unlink (path : String)
  | opendir (path : String)
deriving DecidableEq, Repr

/-- The answer to a call: for most of them the errno, 0 for success. -/
abbrev DevCall.Ans : DevCall → Type
  | selabelLookupBestMatch _ _ _ => Option String
  | selabelLookup _ _ => Option String
  | lgetfilecon _ => Option String
  | stat _ => Bool
  | access _ => Bool
  | readlink _ => Option String
  | opendir _ => Option (List (String × Bool))  -- the names, and which are links
  | _ => Nat

/-- Programs of the device handler; a failure is a `LOG(FATAL)`. -/
abbrev DevProg := Prog DevCall DevCall.Ans String

namespace DevProg

/-- A call of a device program. -/
def lift (op : DevCall) : DevProg op.Ans := Prog.lift op

/-- A call whose answer is not looked at. -/
def call (op : DevCall) : DevProg Unit := do
  let _ ← lift op
  pure ()

/-- A program that runs on a condition. -/
def when (c : Prop) [Decidable c] (m : DevProg Unit) : DevProg Unit := if c then m else pure ()

end DevProg

open DevProg

/-- `make_dir`: the errno that `mkdir` left. -/
def makeDir (path : String) (mode : Nat) : DevProg Nat := do
  let found : Option String ← lift (.selabelLookup path mode)
  let secontext := found.getD ""
  when (secontext ≠ "") (call (.setfscreatecon (some secontext)))
  let rc : Nat ← lift (.mkdir path mode)
  when (secontext ≠ "") (call (.setfscreatecon none))
  pure rc

/-- The loop of `mkdir_recursive` over the directories above a path. -/
def mkdirAll (mode : Nat) : List String → DevProg Bool
  | [] => pure true
  | directory :: more => do
    let found : Bool ← lift (.stat directory)
    if found then mkdirAll mode more
    else
      let errno ← makeDir directory mode
      if errno ≠ 0 ∧ errno ≠ eexist then pure false else mkdirAll mode more

/-- `mkdir_recursive`. -/
def mkdirRecursive (path : String) (mode : Nat) : DevProg Bool := do
  let ok ← mkdirAll mode ((upperDirs path.toList).map String.ofList)
  if ok then
    let errno ← makeDir path mode
    pure (decide (errno = 0 ∨ errno = eexist))
  else pure false

/-- `SysfsPermissions::SetPermissions`. -/
def SysfsPermissions.setPermissions (S : Sysfs) (p : SysfsPermissions) (path : String) : DevProg Unit :=
  let attributeFile := path ++ "/" ++ p.sysfsAttribute
  when (S.exists attributeFile) do
    call (.chown attributeFile p.uid p.gid)
    call (.chmod attributeFile p.perm)

/-- The loop of `FixupSysPermissions` over the lines for `/sys`. -/
def DeviceHandler.fixupEach (H : DeviceHandler) (S : Sysfs) (path subsystem : String) : List SysfsPermissions → DevProg Unit
  | [] => pure ()
  | s :: more => do
    when (s.matchWithSubsystem H.fnmatch path subsystem) (s.setPermissions S path)
    H.fixupEach S path subsystem more

/-- `FixupSysPermissions`. -/
def DeviceHandler.fixupSysPermissions (H : DeviceHandler) (S : Sysfs) (upath subsystem : String) : DevProg Unit := do
  let path := "/sys" ++ upath
  H.fixupEach S path subsystem H.sysfsPermissions
  when (!H.skipRestorecon && S.exists path) (call (.restoreconRecursive path))

/-- `S_IFBLK` and `S_IFCHR`. -/
def sIfblk : Nat := 0o060000
def sIfchr : Nat := 0o020000

/-- The node itself: made with the rule's group as the group of the process, or relabelled if something stands at its path. -/
def makeNode (path secontext : String) (mode gid : Nat) (dev : Int × Int) : DevProg Unit := do
  let refused : Nat ← lift (.setegid gid)
  if refused ≠ 0 then pure ()
  else
    let errno : Nat ← lift (.mknod path mode dev)
    when (errno = eexist ∧ secontext ≠ "") do
      let fcon : Option String ← lift (.lgetfilecon path)
      match fcon with
      | none => pure ()
      | some fcon => when (fcon ≠ secontext) (call (.lsetfilecon path secontext))

/-- The credentials of the process, once the node is made. -/
def restoreCredentials (secontext : String) : DevProg Unit := do
  let refused : Nat ← lift (.setegid 0)
  if refused ≠ 0 then throw "setegid(AID_ROOT) failed" else when (secontext ≠ "") (call (.setfscreatecon none))

/-- `MakeDevice`. -/
def DeviceHandler.makeDevice (H : DeviceHandler) (path : String) (block : Bool) (major minor : Int) (links : List String) :
    DevProg Unit := do
  let (perm, uid, gid) := H.getDevicePermissions path links
  let mode := perm ||| if block then sIfblk else sIfchr
  let found : Option String ← lift (.selabelLookupBestMatch path links mode)
  match found with
  | none => pure ()
  | some secontext => do
    when (secontext ≠ "") (call (.setfscreatecon (some secontext)))
    makeNode path secontext mode gid (major, minor)
    -- out:
    call (.chownUid path uid)
    restoreCredentials secontext

/-- The loop of `HandleDevice` that makes the links. -/
def makeLinks (devpath : String) : List String → DevProg Unit
  | [] => pure ()
  | link :: more => do
    let _ ← mkdirRecursive (pathDirname link) 0o755
    call (.symlink devpath link)
    makeLinks devpath more

/-- The loops that remove links: one that does not point to the device stays. -/
def removeLinks (devpath : String) : List String → DevProg Unit
  | [] => pure ()
  | link :: more => do
    let linkPath : Option String ← lift (.readlink link)
    when (linkPath = some devpath) (call (.unlink link))
    removeLinks devpath more

/-- The loop of `RemoveDeviceMapperLinks` over its directories. -/
def removeLinksIn (devpath : String) : List String → DevProg Unit
  | [] => pure ()
  | dir :: more => do
    let found : Bool ← lift (.access dir)
    when found do
      let dh : Option (List (String × Bool)) ← lift (.opendir dir)
      match dh with
      | none => pure ()
      | some names => removeLinks devpath ((names.filter (·.2)).map (fun n => dir ++ "/" ++ n.1))
    removeLinksIn devpath more

/-- The directories of the links to device-mapper devices. -/
def mapperDirs : List String := ["/dev/block/mapper", "/dev/block/mapper/by-uuid"]

/-- `RemoveDeviceMapperLinks`. -/
def removeDeviceMapperLinks (devpath : String) : DevProg Unit := removeLinksIn devpath mapperDirs

/-- `HandleDevice`. -/
def DeviceHandler.handleDevice (H : DeviceHandler) (action devpath : String) (block : Bool) (major minor : Int)
    (links : List String) : DevProg Unit := do
  when (action = "add") (H.makeDevice devpath block major minor links)
  -- the full information about a device-mapper device comes with a change event only
  when (action = "add" ∨ (action = "change" ∧ startsWith devpath "/dev/block/dm-")) (makeLinks devpath links)
  when (action = "remove") do
    when (startsWith devpath "/dev/block/dm-") (removeDeviceMapperLinks devpath)
    removeLinks devpath links
    call (.unlink devpath)

/-- `StringPrintf("%03d", n)` of a number that is not negative. -/
def threeDigits (n : Int) : String :=
  let digits := (Nat.repr n.toNat).toList
  String.ofList (List.replicate (3 - digits.length) '0' ++ digits)

/-- Where the node of a uevent goes, whether it is a block device, and its links; nothing for a USB event that is ignored. -/
def DeviceHandler.devpathOf (H : DeviceHandler) (S : Sysfs) (uevent : Uevent) : Option (String × Bool × List String) :=
  if uevent.subsystem = "block" then
    some ("/dev/block/" ++ pathBasename uevent.path, true,
      if startsWith uevent.path "/devices" then H.getBlockDeviceSymlinks S uevent else [])
  else match H.subsystems.find? (·.name = uevent.subsystem) with
    | some subsystem => some (subsystem.parseDevPath uevent, false, [])
    | none =>
      if uevent.subsystem = "usb" then
        if uevent.deviceName ≠ "" then some ("/dev/" ++ uevent.deviceName, false, [])
        else
          -- minors are broken up into groups of 128, starting at "001"
          let busId := uevent.minor.tdiv 128 + 1
          let deviceId := uevent.minor.tmod 128 + 1
          some ("/dev/bus/usb/" ++ threeDigits busId ++ "/" ++ threeDigits deviceId, false, [])
      else if startsWith uevent.subsystem "usb" then none
      else if uevent.subsystem = "misc" ∧ startsWith uevent.deviceName "dm-user/" then
        some ("/dev/dm-user/" ++ substr uevent.deviceName 8, false, [])
      else some ("/dev/" ++ pathBasename uevent.path, false, [])

/-- What `HandleAshmemUevent` handles again: the uevent of `ashmem`, under the name that ends with the boot id. -/
def dupAshmemUevent (S : Sysfs) (uevent : Uevent) : Option Uevent :=
  if uevent.deviceName = "ashmem" then
    (S.readFile "/proc/sys/kernel/random/boot_id").map (fun bootId =>
      { uevent with deviceName := uevent.deviceName ++ trim bootId, path := uevent.path ++ trim bootId })
  else none

/-- `DeviceHandler::HandleUevent`, which `HandleAshmemUevent` calls again, so deep at most. -/
def DeviceHandler.handleUevent (H : DeviceHandler) (S : Sysfs) : Nat → Uevent → DevProg Unit
  | 0, _ => throw "stack overflow"
  | depth + 1, uevent => do
    when (uevent.action = "add" ∨ uevent.action = "change" ∨ uevent.action = "bind" ∨ uevent.action = "online")
      (H.fixupSysPermissions S uevent.path uevent.subsystem)
    if uevent.major < 0 ∨ uevent.minor < 0 then pure ()
    else match H.devpathOf S uevent with
      | none => pure ()
      | some (devpath, block, links) => do
        let _ ← mkdirRecursive (pathDirname devpath) 0o755
        H.handleDevice uevent.action devpath block uevent.major uevent.minor links
        match dupAshmemUevent S uevent with
        | none => pure ()
        | some dup => H.handleUevent S depth dup

/-- `DeviceHandler::ColdbootDone`. -/
def DeviceHandler.coldbootDone (H : DeviceHandler) : DeviceHandler := { H with skipRestorecon := false }

/-- The uevents of a run, each with what is read while it is handled. -/
def DeviceHandler.handleAll (H : DeviceHandler) (depth : Nat) : List (Sysfs × Uevent) → DevProg Unit
  | [] => pure ()
  | e :: more => do
    H.handleUevent e.1 depth e.2
    H.handleAll depth more

/-- What stands at a path of `/dev`. A node has its mode, its owner, its label and its device number. -/
inductive DevEntry where
  | dir
  | file
  | link (target : String)
  | node (mode uid gid : Nat) (secontext : String) (dev : Int × Int)
deriving DecidableEq, Repr

/-- The tree of `/dev`, and the credentials that what is made there gets its group and label from. -/
structure DevWorld where
  entries : List (String × DevEntry) := [("/", .dir), ("/dev", .dir)]
  egid : Nat := 0
  fscreatecon : Option String := none
  tick : Nat := 0
deriving DecidableEq, Repr

namespace DevWorld

/-- What stands at a path. -/
def entry (w : DevWorld) (path : String) : Option DevEntry := (w.entries.find? (·.1 = path)).map (·.2)

/-- Put an entry at a path. -/
def put (w : DevWorld) (path : String) (e : DevEntry) : DevWorld :=
  { w with entries := (path, e) :: w.entries.filter (·.1 ≠ path) }

/-- Take the entry at a path away. -/
def erase (w : DevWorld) (path : String) : DevWorld := { w with entries := w.entries.filter (·.1 ≠ path) }

/-- Make an entry: there is nothing at the path, and a directory to put it in. -/
def make (w : DevWorld) (path : String) (e : DevEntry) : Nat × DevWorld :=
  if (w.entry path).isSome then (eexist, w)
  else match w.entry (pathDirname path) with
    | none => (enoent, w)
    | some .dir => (0, w.put path e)
    | some _ => (enotdir, w)

/-- The path that a path leads to, through one link. -/
def target (w : DevWorld) (path : String) : String :=
  match w.entry path with
  | some (.link target) => target
  | _ => path

/-- The name that a path has in a directory. -/
def nameIn (dir path : String) : Option String :=
  if startsWith path (dir ++ "/") then
    let name := path.toList.drop (dir.length + 1)
    if name ≠ [] ∧ '/' ∉ name then some (String.ofList name) else none
  else none

/-- The names of a directory, and which are links. -/
def names (w : DevWorld) (dir : String) : List (String × Bool) :=
  w.entries.filterMap (fun e => (nameIn dir e.1).map (fun name => (name, match e.2 with | .link _ => true | _ => false)))

end DevWorld

/-- What decides about calls outside of the tree: refusals, with their errno, at each tick; the file contexts; and the label of a node
that is made while no context is set. -/
structure DevKernel where
  refuse : Nat → DevCall → Option Nat := fun _ _ => none
  selabel : String → List String → Nat → Option String := fun _ _ _ => some ""
  defaultContext : String → String := fun _ => ""

namespace DevKernel

/-- The effect of a call that is not refused. -/
def perform (K : DevKernel) (w : DevWorld) : (op : DevCall) → op.Ans × DevWorld
  | .chown _ _ _ => ((0 : Nat), w)
  | .chmod _ _ => ((0 : Nat), w)
  | .restoreconRecursive _ => ((0 : Nat), w)
  | .setegid gid => ((0 : Nat), { w with egid := gid })
  | .setfscreatecon con => ((0 : Nat), { w with fscreatecon := con })
  | .selabelLookupBestMatch path links mode => (K.selabel path links mode, w)
  | .selabelLookup path mode => (K.selabel path [] mode, w)
  | .lgetfilecon path => (match w.entry path with
    | some (.node _ _ _ secontext _) => some secontext
    | some _ => some (K.defaultContext path)
    | none => none, w)
  | .lsetfilecon path con => match w.entry path with
    | some (.node mode uid gid _ dev) => ((0 : Nat), w.put path (.node mode uid gid con dev))
    | some _ => ((0 : Nat), w)
    | none => (enoent, w)
  | .stat path => ((w.entry (w.target path)).isSome, w)
  | .access path => ((w.entry (w.target path)).isSome, w)
  | .mkdir path _ => w.make path .dir
  | .mknod path mode dev => w.make path (.node mode 0 w.egid (w.fscreatecon.getD (K.defaultContext path)) dev)
  | .chownUid path uid =>
    let path := w.target path
    match w.entry path with
    | some (.node mode _ gid secontext dev) => ((0 : Nat), w.put path (.node mode uid gid secontext dev))
    | some _ => ((0 : Nat), w)
    | none => (enoent, w)
  | .symlink target path => w.make path (.link target)
  | .readlink path => (match w.entry path with
    | some (.link target) => some target
    | _ => none, w)
  | .unlink path => match w.entry path with
    | none => (enoent, w)
    | some .dir => (eisdir, w)
    | some _ => ((0 : Nat), w.erase path)
  | .opendir path => (match w.entry path with
    | some .dir => some (w.names path)
    | _ => none, w)

/-- The answer to a call that is refused. -/
def refusal (errno : Nat) : (op : DevCall) → op.Ans
  | .selabelLookupBestMatch _ _ _ => (none : Option String)
  | .selabelLookup _ _ => (none : Option String)
  | .lgetfilecon _ => (none : Option String)
  | .stat _ => false
  | .access _ => false
  | .readlink _ => (none : Option String)
  | .opendir _ => (none : Option (List (String × Bool)))
  | .chown _ _ _ => errno
  | .chmod _ _ => errno
  | .restoreconRecursive _ => errno
  | .setegid _ => errno
  | .setfscreatecon _ => errno
  | .lsetfilecon _ _ => errno
  | .mkdir _ _ => errno
  | .mknod _ _ _ => errno
  | .chownUid _ _ => errno
  | .symlink _ _ => errno
  | .unlink _ => errno

/-- A call, which takes a tick. A refused call has an errno that is not 0. -/
def handle (K : DevKernel) (op : DevCall) (w : DevWorld) : op.Ans × DevWorld :=
  match K.refuse w.tick op with
  | some errno => (refusal (max errno 1) op, { w with tick := w.tick + 1 })
  | none =>
    let r := K.perform w op
    (r.1, { r.2 with tick := w.tick + 1 })

end DevKernel

end Innit
