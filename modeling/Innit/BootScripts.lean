import Innit.RcParser

/-!
# The boot scripts

`LoadBootScripts`, with the directories that init parses at boot, and the same directories as `host_init_verifier` parses them when
an image is built. Both drive the section parsers of the rc files with one parser; the verifier has an order of its own.
-/

namespace Innit

/-- The directory of the rc files of a partition. -/
def etcInit (partition : String) : String := "/" ++ partition ++ "/etc/init"

/-- `ParseConfig` of a directory that is noted for `import_late` where it cannot be parsed. -/
def parseOrImportLate (Γ : Ctx) (path : String) (p : Parsing Rc) : Parsing Rc :=
  let r := parseConfig Γ Γ.importDepth path p
  if r.1 then r.2
  else
    let w := r.2.state.world
    { r.2 with state := { r.2.state with
      world := { w with g := { w.g with lateImportPaths := w.g.lateImportPaths ++ [path] } } } }

/-- The script that Innit forces, and that is the default without it. -/
def initScript : String := "/system/etc/init/hw/init.rc"

/-- `LoadBootScripts`. With Innit built in the script is forced, and the directories are not parsed. -/
def World.loadBootScripts (Γ : Ctx) (innit : Bool) (w : World) : World :=
  let bootscript := if innit then initScript else w.g.sys.getProperty "ro.boot.init_rc"
  let p : Parsing Rc := { state := { world := w } }
  if bootscript = "" then
    let p := (parseConfig Γ Γ.importDepth initScript p).2
    let p := parseOrImportLate Γ (etcInit "system") p
    let p := (parseConfig Γ Γ.importDepth (etcInit "system_ext") p).2
    let p := parseOrImportLate Γ (etcInit "vendor") p
    let p := parseOrImportLate Γ (etcInit "odm") p
    (parseOrImportLate Γ (etcInit "product") p).state.world
  else (parseConfig Γ Γ.importDepth bootscript p).2.state.world

/-- `partition_search_order` of `host_init_verifier`. -/
def partitionSearchOrder : List String := ["system", "system_ext", "odm", "vendor", "product"]

/-- What `host_init_verifier` parses, given the output directory of each partition it was told, with a `/` at its end. Sections that
pass its check of the interface hierarchy it parses as init does. -/
def World.verifyPartitions (Γ : Ctx) (partitionMap : String → Option String) (w : World) : World :=
  w.parseConfigs Γ (partitionSearchOrder.filterMap (fun p => (partitionMap p).map (· ++ "etc/init")))

end Innit
