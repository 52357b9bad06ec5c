import ImagePull.Digest
import ImagePull.Flavor
import ImagePull.Json.Form
import ImagePull.Platform

/-!
# What a daemon tells

A daemon tells about its machine, about its own components, and about an image in its
registry. Each of these reports is a record with many fields, all of which have to be
well formed, though only a few are looked at here.
-/

namespace ImagePull

open Json (Form)
open Json.Form (nullable)

/-! ## The machine -/

/-- What a daemon tells about its machine. -/
structure DaemonInfo where
  os : Option String
  architecture : Option String
  version : Option String
deriving DecidableEq, Repr

namespace DaemonInfo

/-- The form of a commit. -/
def commit : Form :=
  Form.record (nullable .text ["ID"])

/-- The fields of the report on a machine, by place. -/
def fields : List (String × Form) :=
  nullable .text ["ID"] ++
  nullable .whole ["Containers", "ContainersRunning", "ContainersPaused", "ContainersStopped",
    "Images"] ++
  nullable .text ["Driver"] ++
  nullable (.list (.list .text)) ["DriverStatus"] ++
  nullable .text ["DockerRootDir"] ++
  nullable (.record (nullable (.list .text) ["Volume", "Network", "Authorization", "Log"]))
    ["Plugins"] ++
  nullable .flag ["MemoryLimit", "SwapLimit", "CpuCfsPeriod", "CpuCfsQuota", "CPUShares",
    "CPUSet", "PidsLimit", "OomKillDisable", "IPv4Forwarding", "Debug"] ++
  nullable .whole ["NFd", "NGoroutines"] ++
  nullable .text ["SystemTime", "LoggingDriver"] ++
  nullable (.choice ["", "cgroupfs", "systemd", "none"]) ["CgroupDriver"] ++
  nullable (.choice ["", "1", "2"]) ["CgroupVersion"] ++
  nullable .whole ["NEventsListener"] ++
  nullable .text ["KernelVersion", "OperatingSystem", "OSVersion", "OSType", "Architecture"] ++
  nullable .whole ["NCPU", "MemTotal"] ++
  nullable .text ["IndexServerAddress"] ++
  nullable .any ["RegistryConfig"] ++
  nullable (.list .any) ["GenericResources"] ++
  nullable .text ["HttpProxy", "HttpsProxy", "NoProxy", "Name"] ++
  nullable (.list .text) ["Labels"] ++
  nullable .flag ["ExperimentalBuild"] ++
  nullable .text ["ServerVersion"] ++
  nullable (.table .any) ["Runtimes"] ++
  nullable .text ["DefaultRuntime"] ++
  nullable .any ["Swarm"] ++
  nullable .flag ["LiveRestoreEnabled"] ++
  nullable (.choice ["default", "hyperv", "process", ""]) ["Isolation"] ++
  nullable .text ["InitBinary"] ++
  nullable commit ["ContainerdCommit", "RuncCommit", "InitCommit"] ++
  nullable (.list .text) ["SecurityOptions"] ++
  nullable .text ["ProductLicense"] ++
  nullable (.list (.record (nullable .text ["Base"] ++ nullable .whole ["Size"])))
    ["DefaultAddressPools"] ++
  nullable (.record (nullable .text ["Driver"] ++ nullable (.list (.list .text)) ["Info"]))
    ["FirewallBackend"] ++
  nullable (.list (.record (nullable .text ["Source", "ID"]))) ["DiscoveredDevices"] ++
  nullable (.list .text) ["Warnings", "CDISpecDirs"] ++
  nullable .any ["Containerd"]

/-- What a report tells about the machine of a daemon. -/
def ofJson? (j : Json) : Option DaemonInfo := do
  let fields ← Form.fields? fields j
  let text? (name : String) := (fields.lookup name).bind Json.text?
  some
    { os := text? "OSType"
      architecture := text? "Architecture"
      version := text? "ServerVersion" }

/-- The platform that a daemon pulls for unless it is told. -/
def platform? (i : DaemonInfo) : Option Platform := do
  let os ← i.os
  let architecture ← i.architecture
  if os = "" ∨ architecture = "" then none else some (Platform.of os architecture none)

end DaemonInfo

/-! ## The components -/

namespace Flavor

/-- The name of the component that only Podman has. -/
def podmanComponent : String := "Podman Engine"

/-- The fields of a component, by place. -/
def componentFields : List (String × Form) :=
  [("Name", .text), ("Version", .text), ("Details", .any)]

/-- The fields of the report on the components of a daemon, by place. -/
def versionFields : List (String × Form) :=
  nullable (.record [("Name", .text)]) ["Platform"] ++
  nullable (.list (.record componentFields)) ["Components"] ++
  nullable .text ["Version", "ApiVersion", "MinAPIVersion", "GitCommit", "GoVersion",
    "Os", "Arch", "KernelVersion"] ++
  nullable .flag ["Experimental"] ++
  nullable .text ["BuildTime"]

/-- The name of a component. -/
def componentName? (j : Json) : Option String := do
  let fields ← Form.fields? componentFields j
  (fields.lookup "Name").bind Json.text?

/-- The flavor that the components of a daemon tell. -/
def ofVersionJson? (j : Json) : Option Flavor := do
  let fields ← Form.fields? versionFields j
  let names := match fields.lookup "Components" with
    | some (.array components) => components.filterMap componentName?
    | _ => []
  some (if names.contains podmanComponent then .podman else .docker)

end Flavor

/-! ## An image in its registry -/

namespace Digest

/-- The form of a platform that an image is for. -/
def platformForm : Form :=
  .record (nullable .text ["architecture", "os", "os.version"] ++
    nullable (.list .text) ["os.features"] ++ nullable .text ["variant"])

/-- The fields of the description of an image, by place. -/
def descriptorFields : List (String × Form) :=
  nullable .text ["mediaType", "digest"] ++
  nullable .whole ["size"] ++
  nullable (.list .text) ["urls"] ++
  nullable (.table .text) ["annotations"] ++
  nullable .text ["data"] ++
  nullable platformForm ["platform"] ++
  nullable .text ["artifactType"]

/-- The fields of the report on an image, by place. -/
def distributionFields : List (String × Form) :=
  ("Descriptor", .record descriptorFields) ::
  nullable (.list platformForm) ["Platforms"]

/-- The digest of an image in its registry, if the report names one. The platforms may
be null but not missing. -/
def ofDistributionJson? (j : Json) : Option (Option String) := do
  let fields ← Form.fields? distributionFields j
  let _ ← fields.lookup "Platforms"
  let descriptor ← (fields.lookup "Descriptor").bind (Form.fields? descriptorFields)
  some ((descriptor.lookup "digest").bind Json.text?)

end Digest

end ImagePull
